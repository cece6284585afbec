/-
While loops with a measure.

The condition of a loop is a function `next` that picks the action of the next round or
ends the loop, and the body performs the action, `move`.  `rounds` lists the actions of
at most `n` rounds, and the state that they lead to is their `StepRun.run`.  If every
round decreases a measure, then as many rounds as the measure says are enough for the
loop to end (`next_run_rounds`).  `EndsIn` says in which state a loop ends, without a
bound on the rounds; a loop of which the body is known is followed with `EndsIn.stop` and
`EndsIn.round`.
-/
import DuckdbEngine.Lib.StepRun

namespace WhileLoop

variable {σ α : Type*} (next : σ → Option α) (move : σ → α → σ)

/-- The actions of the first rounds, at most `n` of them. -/
def rounds : ℕ → σ → List α
  | 0, _ => []
  | n + 1, s =>
      match next s with
      | none => []
      | some a => a :: rounds n (move s a)

variable {next move}

lemma rounds_of_none {s : σ} (h : next s = none) (n : ℕ) : rounds next move n s = [] := by
  cases n with
  | zero => rfl
  | succ n => rw [rounds, h]

lemma rounds_of_some {s : σ} {a : α} (h : next s = some a) (n : ℕ) :
    rounds next move (n + 1) s = a :: rounds next move n (move s a) := by
  rw [rounds, h]

/-- Every action is the one that the loop picks in the state the round starts from. -/
theorem along_rounds (n : ℕ) (s : σ) :
    StepRun.Along move (fun s a => next s = some a) s (rounds next move n s) := by
  induction n generalizing s with
  | zero => trivial
  | succ n ih =>
      cases h : next s with
      | none => rw [rounds_of_none h]; trivial
      | some a => rw [rounds_of_some h]; exact ⟨h, ih _⟩

/-! ### The state in which a loop ends -/

/-- From `s` the loop ends in `s'`, after some number of rounds. -/
def EndsIn (next : σ → Option α) (move : σ → α → σ) (s s' : σ) : Prop :=
  next s' = none ∧ ∃ n, StepRun.run move s (rounds next move n s) = s'

namespace EndsIn

variable {s s' s₁ s₂ : σ} {a : α}

lemma stop (h : next s = none) : EndsIn next move s s := ⟨h, 0, rfl⟩

lemma round (h : next s = some a) (hend : EndsIn next move (move s a) s') :
    EndsIn next move s s' := by
  obtain ⟨hnone, n, hrun⟩ := hend
  refine ⟨hnone, n + 1, ?_⟩
  rw [rounds_of_some h, StepRun.run_cons, hrun]

/-- A loop that does not stop yet goes on from the state behind the round. -/
lemma tail (h : next s = some a) (hend : EndsIn next move s s') :
    EndsIn next move (move s a) s' := by
  obtain ⟨hnone, n, hrun⟩ := hend
  cases n with
  | zero =>
      have hstop : next s = none := by
        rw [← hrun] at hnone
        exact hnone
      exact absurd (h.symm.trans hstop) (Option.some_ne_none a)
  | succ n =>
      rw [rounds_of_some h, StepRun.run_cons] at hrun
      exact ⟨hnone, n, hrun⟩

/-- The loop is deterministic. -/
theorem unique (h₁ : EndsIn next move s s₁) (h₂ : EndsIn next move s s₂) : s₁ = s₂ := by
  obtain ⟨hnone₁, n, rfl⟩ := h₁
  obtain ⟨hnone₂, m, rfl⟩ := h₂
  induction n generalizing m s with
  | zero =>
      have hstop : next s = none := hnone₁
      rw [rounds_of_none hstop, rounds_of_none hstop]
  | succ n ih =>
      cases h : next s with
      | none => rw [rounds_of_none h, rounds_of_none h]
      | some a =>
          cases m with
          | zero => exact absurd (h.symm.trans hnone₂) (Option.some_ne_none a)
          | succ m =>
              rw [rounds_of_some h, StepRun.run_cons] at hnone₁ hnone₂ ⊢
              rw [rounds_of_some h, StepRun.run_cons]
              exact ih hnone₁ m hnone₂

end EndsIn

/-- The action of a round can be the state that it leads to. -/
def goto (_ s' : σ) : σ := s'

/-! ### Measures -/

variable {μ : σ → ℕ} (hμ : ∀ s a, next s = some a → μ (move s a) < μ s)
include hμ

/-- The loop has ended after as many rounds as the measure says. -/
theorem next_run_rounds {n : ℕ} {s : σ} (hn : μ s ≤ n) :
    next (StepRun.run move s (rounds next move n s)) = none := by
  induction n generalizing s with
  | zero =>
      cases h : next s with
      | none => exact h
      | some a => have := hμ s a h; omega
  | succ n ih =>
      cases h : next s with
      | none => rw [rounds_of_none h]; exact h
      | some a =>
          have := hμ s a h
          rw [rounds_of_some h, StepRun.run_cons]
          exact ih (by omega)

theorem endsIn_run_rounds {n : ℕ} {s : σ} (hn : μ s ≤ n) :
    EndsIn next move s (StepRun.run move s (rounds next move n s)) :=
  ⟨next_run_rounds hμ hn, n, rfl⟩

end WhileLoop
