/-
Streams that are pulled chunk by chunk.

A producer is a step function that gives the next state and a chunk, or raises an
exception.  Its consumer calls it until a chunk is empty, which is the end of the
stream, or until it raises.  `drain` makes at most the given number of calls; a
producer that has less to give after every chunk is drained to the end, and what
comes out is found from what one call does (`drain_spec`).

A producer of single elements may be called any number of times, with an input each time;
`answers` are what it gives.  One that gives the elements of a list and then says forever that
it is at the end has the answers of `answers_eq`.
-/
import Mathlib.Data.List.Basic

namespace PullStream

/-- How a stream ends for its consumer: normally with all elements received, or with an
exception. -/
inductive Outcome (ε α : Type*) where
  | ended (xs : List α)
  | raised (e : ε)
deriving DecidableEq

namespace Outcome

variable {ε α : Type*}

/-- The outcome if the elements `xs` were received before. -/
def prepend (xs : List α) : Outcome ε α → Outcome ε α
  | ended ys => ended (xs ++ ys)
  | raised e => raised e

@[simp] lemma prepend_ended (xs ys : List α) :
    (ended ys : Outcome ε α).prepend xs = ended (xs ++ ys) := rfl

@[simp] lemma prepend_raised (xs : List α) (e : ε) :
    (raised e : Outcome ε α).prepend xs = raised e := rfl

@[simp] lemma prepend_nil (o : Outcome ε α) : o.prepend [] = o := by
  cases o <;> rfl

lemma prepend_prepend (xs ys : List α) (o : Outcome ε α) :
    (o.prepend ys).prepend xs = o.prepend (xs ++ ys) := by
  cases o <;> simp

end Outcome

variable {σ ε α : Type*} (step : σ → Except ε (σ × List α))

/-- The outcome of pulling until the end, if at most `n` calls are needed. -/
def drain : ℕ → σ → Option (Outcome ε α)
  | 0, _ => none
  | n + 1, s =>
      match step s with
      | .error e => some (.raised e)
      | .ok (_, []) => some (.ended [])
      | .ok (s', x :: xs) => (drain n s').map (.prepend (x :: xs))

variable {step}

/-- The run rule: `out` is the outcome of draining, if it is what one call makes of the outcome
from the next state on, and if every chunk leaves less to give. -/
theorem drain_spec {P : σ → Prop} {out : σ → Outcome ε α} {m : σ → ℕ}
    (herror : ∀ s e, P s → step s = .error e → out s = .raised e)
    (hend : ∀ s s', P s → step s = .ok (s', []) → out s = .ended [])
    (hmore : ∀ s s' xs, P s → step s = .ok (s', xs) → xs ≠ [] →
      P s' ∧ m s' < m s ∧ out s = (out s').prepend xs)
    {n : ℕ} {s : σ} (hs : P s) (hn : m s < n) : drain step n s = some (out s) := by
  induction n generalizing s with
  | zero => omega
  | succ n ih =>
      rw [drain]
      split
      · next e he => rw [herror s e hs he]
      · next s' hok => rw [hend s s' hs hok]
      · next s' x xs hok =>
          obtain ⟨hs', hlt, hout⟩ := hmore s s' (x :: xs) hs hok (by simp)
          rw [ih hs' (by omega), hout, Option.map_some]

/-! ### Calls -/

section calls

variable {ι : Type*} (call : ι → σ → α × σ)

/-- The answers to a sequence of calls. -/
def answers : List ι → σ → List α
  | [], _ => []
  | i :: is, s => (call i s).1 :: answers is (call i s).2

variable {call}

/-- The run rule: `rest` is what a producer has left to give, and `last` its answer after that. -/
theorem answers_eq {P : σ → Prop} (rest : σ → List α) (last : ι → α)
    (hmore : ∀ i s a as, P s → rest s = a :: as →
      (call i s).1 = a ∧ P (call i s).2 ∧ rest (call i s).2 = as)
    (hlast : ∀ i s, P s → rest s = [] →
      (call i s).1 = last i ∧ P (call i s).2 ∧ rest (call i s).2 = [])
    {s : σ} (hs : P s) (is : List ι) :
    answers call is s = (rest s).take is.length ++ (is.drop (rest s).length).map last := by
  induction is generalizing s with
  | nil => simp [answers]
  | cons i is ih =>
      rw [answers]
      cases hrest : rest s with
      | nil =>
          obtain ⟨ha, hP, hnil⟩ := hlast i s hs hrest
          rw [ha, ih hP, hnil]
          simp
      | cons a as =>
          obtain ⟨ha, hP, has⟩ := hmore i s a as hs hrest
          rw [ha, ih hP, has]
          simp

end calls

end PullStream
