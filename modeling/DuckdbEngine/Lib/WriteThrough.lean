/-
Values that are passed on when they change.

A client keeps a copy of a value that a server holds.  Asked for a value, it compares it
with the copy; if they differ it updates the copy and sends the value, which the server
may refuse.  The client does not look at the answer.

So the values that are sent are the requested ones without repetitions, whatever the
server answers (`copy_cons_sends`), and the server holds the last one of them that it
accepted (`held_run`).
-/
import Mathlib.Data.List.Destutter
import DuckdbEngine.Lib.StepRun

namespace WriteThrough

variable {α : Type*}

/-- The copy of the client, the value that the server holds, and what has been sent with the
answers of the server. -/
structure Cell (α : Type*) where
  copy : α
  held : α
  log : List (α × Bool)

/-- The last value that was accepted. -/
def lastAccepted (log : List (α × Bool)) : Option α := ((log.filter Prod.snd).getLast?).map Prod.fst

lemma lastAccepted_cons (r : α × Bool) (log : List (α × Bool)) (a : α) :
    (lastAccepted (r :: log)).getD a = (lastAccepted log).getD (if r.2 then r.1 else a) := by
  rw [lastAccepted, List.filter_cons]
  by_cases h : r.2
  · rw [if_pos h, if_pos h, List.getLast?_cons, lastAccepted]
    cases (log.filter Prod.snd).getLast? <;> rfl
  · rw [if_neg h, if_neg h, lastAccepted]

variable [DecidableEq α]

/-- A value is requested; the flag says whether the server would accept it. -/
def request (c : Cell α) (r : α × Bool) : Cell α :=
  if r.1 = c.copy then c
  else ⟨r.1, if r.2 then r.1 else c.held, c.log ++ [r]⟩

lemma request_of_eq {c : Cell α} {r : α × Bool} (h : r.1 = c.copy) : request c r = c := if_pos h

lemma request_of_ne {c : Cell α} {r : α × Bool} (h : r.1 ≠ c.copy) :
    request c r = ⟨r.1, if r.2 then r.1 else c.held, c.log ++ [r]⟩ := if_neg h

/-- The requests that reach the server. -/
def sends (copy : α) : List (α × Bool) → List (α × Bool)
  | [] => []
  | r :: rs => if r.1 = copy then sends copy rs else r :: sends r.1 rs

/-- What is sent does not depend on the answers. -/
theorem copy_cons_sends (copy : α) (rs : List (α × Bool)) :
    copy :: (sends copy rs).map Prod.fst = (rs.map Prod.fst).destutter' (· ≠ ·) copy := by
  induction rs generalizing copy with
  | nil => rfl
  | cons r rs ih =>
      rw [sends, List.map_cons, List.destutter'_cons]
      by_cases h : r.1 = copy
      · rw [if_pos h, if_neg (not_not.2 h.symm), ih]
      · rw [if_neg h, if_pos (Ne.symm h), List.map_cons, ih]

variable (c : Cell α) (rs : List (α × Bool))

lemma log_run : (StepRun.run request c rs).log = c.log ++ sends c.copy rs := by
  induction rs generalizing c with
  | nil => exact (List.append_nil _).symm
  | cons r rs ih =>
      rw [StepRun.run_cons, ih, request, sends]
      split
      · rfl
      · exact List.append_assoc _ _ _

/-- The copy is the value that was requested last. -/
lemma copy_run : (StepRun.run request c rs).copy = ((rs.map Prod.fst).getLast?).getD c.copy := by
  induction rs generalizing c with
  | nil => rfl
  | cons r rs ih =>
      rw [StepRun.run_cons, ih, List.map_cons, List.getLast?_cons, Option.getD_some, request]
      split
      · next h => rw [h]
      · rfl

/-- The server holds the last value that it accepted. -/
theorem held_run :
    (StepRun.run request c rs).held = (lastAccepted (sends c.copy rs)).getD c.held := by
  induction rs generalizing c with
  | nil => rfl
  | cons r rs ih =>
      rw [StepRun.run_cons, ih, request, sends]
      split
      · rfl
      · rw [lastAccepted_cons]

/-- If the last value that was sent was accepted, it is the value that was requested last. -/
lemma held_eq_copy (h : ((sends c.copy rs).getLast?).elim (c.held = c.copy) fun r => r.2 = true) :
    (StepRun.run request c rs).held = (StepRun.run request c rs).copy := by
  induction rs generalizing c with
  | nil => exact h
  | cons r rs ih =>
      rw [StepRun.run_cons]
      refine ih _ ?_
      rw [sends] at h
      rw [request]
      split at h
      · next heq => rwa [if_pos heq]
      · next hne =>
          rw [if_neg hne]
          rw [List.getLast?_cons] at h
          cases hlast : (sends r.1 rs).getLast? with
          | none =>
              rw [hlast] at h
              exact if_pos h
          | some x =>
              rw [hlast] at h
              exact h

end WriteThrough
