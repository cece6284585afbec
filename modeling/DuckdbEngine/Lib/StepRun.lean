/-
Runs of a deterministic step function.

A system is a step function `step : σ → α → σ` on states and actions.  `run`
iterates it over a list of actions, and `Along P` says that the condition `P`
holds at every step of a run, evaluated in the state the step starts from.  An
invariant that every admissible step keeps holds at the end of every admissible
run (`run_inv`), and what the invariant yields at a single step is seen at every
step of the run (`along_of_inv`).
-/
import Mathlib.Data.List.Basic

namespace StepRun

variable {σ α : Type*} (step : σ → α → σ)

/-- The state reached from `s` by the actions `as`, taken in order. -/
def run (s : σ) (as : List α) : σ := as.foldl step s

/-- The condition `P` holds at every step of the run of `as` from `s`. -/
def Along (P : σ → α → Prop) : σ → List α → Prop
  | _, [] => True
  | s, a :: as => P s a ∧ Along P (step s a) as

@[simp] lemma run_nil (s : σ) : run step s [] = s := rfl

@[simp] lemma run_cons (s : σ) (a : α) (as : List α) :
    run step s (a :: as) = run step (step s a) as := rfl

lemma run_append (s : σ) (as bs : List α) :
    run step s (as ++ bs) = run step (run step s as) bs := by
  simp [run, List.foldl_append]

@[simp] lemma along_nil (P : σ → α → Prop) (s : σ) : Along step P s [] := trivial

@[simp] lemma along_cons (P : σ → α → Prop) (s : σ) (a : α) (as : List α) :
    Along step P s (a :: as) ↔ P s a ∧ Along step P (step s a) as := Iff.rfl

lemma along_append (P : σ → α → Prop) (s : σ) (as bs : List α) :
    Along step P s (as ++ bs) ↔ Along step P s as ∧ Along step P (run step s as) bs := by
  induction as generalizing s with
  | nil => simp
  | cons a as ih => simp [ih, and_assoc]

lemma along_of_forall {P : α → Prop} {as : List α} (h : ∀ a ∈ as, P a) (s : σ) :
    Along step (fun _ a => P a) s as := by
  induction as generalizing s with
  | nil => trivial
  | cons a as ih =>
      exact ⟨h a List.mem_cons_self, ih (fun b hb => h b (List.mem_cons_of_mem a hb)) _⟩

variable {step} {I : σ → Prop} {P : σ → α → Prop}

/-- An invariant kept by every step that meets `P` holds after every run whose
steps all meet `P`. -/
theorem run_inv (hstep : ∀ s a, I s → P s a → I (step s a)) {s : σ} {as : List α}
    (hs : I s) (has : Along step P s as) : I (run step s as) := by
  induction as generalizing s with
  | nil => exact hs
  | cons a as ih =>
      obtain ⟨ha, has⟩ := has
      exact ih (hstep s a hs ha) has

/-- What the invariant yields at one step is seen at every step of the run. -/
theorem along_of_inv (hstep : ∀ s a, I s → P s a → I (step s a))
    (hQ : ∀ s a, I s → P s a → Q s a) {s : σ} {as : List α}
    (hs : I s) (has : Along step P s as) : Along step Q s as := by
  induction as generalizing s with
  | nil => trivial
  | cons a as ih =>
      obtain ⟨ha, has⟩ := has
      exact ⟨hQ s a hs ha, ih (hstep s a hs ha) has⟩

/-- If, while the invariant holds, the steps that keep it are those at which `Q` is seen,
then `Q` is seen along the run exactly when all its steps are of that kind. -/
theorem along_iff_of_inv {C : σ → α → Prop}
    (hstep : ∀ s a, I s → P s a → C s a → I (step s a))
    (hiff : ∀ s a, I s → P s a → (Q s a ↔ C s a)) {s : σ} {as : List α}
    (hs : I s) (has : Along step P s as) : Along step Q s as ↔ Along step C s as := by
  induction as generalizing s with
  | nil => exact Iff.rfl
  | cons a as ih =>
      obtain ⟨ha, has⟩ := has
      rw [along_cons, along_cons, hiff s a hs ha]
      exact and_congr_right fun hC => ih (hstep s a hs ha hC) has

/-- If every step is idle or goes down in a transitive relation, so does the run. -/
lemma idle_or_down {R : σ → σ → Prop} (htrans : ∀ s t u, R s t → R t u → R s u)
    {Idle : α → Prop} (hidle : ∀ s a, Idle a → step s a = s) {s : σ} {as : List α}
    (has : Along step (fun s a => Idle a ∨ R (step s a) s) s as) :
    (∀ a ∈ as, Idle a) ∨ R (run step s as) s := by
  induction as generalizing s with
  | nil => exact Or.inl (by simp)
  | cons a as ih =>
      obtain ⟨ha | ha, has⟩ := has
      · rw [run_cons, hidle s a ha]
        rw [hidle s a ha] at has
        refine (ih has).imp_left fun hall => ?_
        exact List.forall_mem_cons.2 ⟨ha, hall⟩
      · rcases ih has with hall | hdown
        · have hstay : run step (step s a) as = step s a := by
            refine run_inv (I := fun t => t = step s a) (fun t b ht hb => ?_) rfl
              (along_of_forall step hall _)
            rw [hidle t b hb, ht]
          rw [run_cons, hstay]
          exact Or.inr ha
        · exact Or.inr (htrans _ _ _ hdown ha)

/-- A run that comes back to where it began was idle, if what is not idle goes down. -/
theorem idle_of_run_eq {R : σ → σ → Prop} (htrans : ∀ s t u, R s t → R t u → R s u)
    (hirrefl : ∀ s, ¬ R s s) {Idle : α → Prop} (hidle : ∀ s a, Idle a → step s a = s) {s : σ}
    {as : List α} (has : Along step (fun s a => Idle a ∨ R (step s a) s) s as)
    (hrun : run step s as = s) : ∀ a ∈ as, Idle a := by
  rcases idle_or_down htrans hidle has with hall | hdown
  · exact hall
  · rw [hrun] at hdown
    exact absurd hdown (hirrefl s)

end StepRun
