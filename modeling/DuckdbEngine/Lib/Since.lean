/-
What has happened along a run.

`Since ev stop s as` says that the run of `as` from `s` has a step at which `ev`
is seen and after which no step at which `stop` is seen: the past-time "`ev`, and
not `stop` since".  It is judged one step at a time (`since_concat`), so that an
invariant may speak of the state together with what has happened so far
(`run_inv_since`).
-/
import Mathlib.Data.List.Induction
import DuckdbEngine.Lib.StepRun

namespace StepRun

variable {σ α : Type*} (step : σ → α → σ)

/-- Some step of the run of `as` from `s` is one of `ev`, and none after it is one of
`stop`. -/
def Since (ev stop : σ → α → Prop) (s : σ) (as : List α) : Prop :=
  ∃ us a vs, as = us ++ a :: vs ∧ ev (run step s us) a ∧
    Along step (fun s a => ¬ stop s a) (run step s (us ++ [a])) vs

variable {step} {ev stop : σ → α → Prop} {s : σ} {as : List α}

lemma not_since_nil : ¬ Since step ev stop s [] := by
  rintro ⟨us, a, vs, has, -, -⟩
  simp at has

/-- After one more step: it is one of `ev`, or `ev` had been seen and the step is none of
`stop`. -/
lemma since_concat {a : α} :
    Since step ev stop s (as ++ [a]) ↔
      ev (run step s as) a ∨ (Since step ev stop s as ∧ ¬ stop (run step s as) a) := by
  constructor
  · rintro ⟨us, b, vs, has, hev, hvs⟩
    rcases List.eq_nil_or_concat vs with rfl | ⟨ws, c, rfl⟩
    · obtain ⟨rfl, rfl⟩ : as = us ∧ a = b := by simpa using List.append_inj' has rfl
      exact Or.inl hev
    · obtain ⟨rfl, rfl⟩ : as = us ++ b :: ws ∧ a = c := by
        rw [List.concat_eq_append, ← List.cons_append, ← List.append_assoc] at has
        simpa using List.append_inj' has rfl
      rw [List.concat_eq_append, along_append, ← run_append] at hvs
      have hlast := hvs.2.1
      rw [List.append_assoc, List.singleton_append] at hlast
      exact Or.inr ⟨⟨us, b, ws, rfl, hev, hvs.1⟩, hlast⟩
  · rintro (hev | ⟨⟨us, b, vs, rfl, hev, hvs⟩, hstop⟩)
    · exact ⟨as, a, [], rfl, hev, trivial⟩
    · refine ⟨us, b, vs ++ [a], by simp, hev, ?_⟩
      rw [along_append, ← run_append, List.append_assoc, List.singleton_append]
      exact ⟨hvs, hstop, trivial⟩

/-- An invariant of the state and of two things that have happened holds along every run,
if every step keeps it. -/
theorem run_inv_since {I : σ → Prop → Prop → Prop} {ev₁ stop₁ ev₂ stop₂ : σ → α → Prop}
    (hstep : ∀ s a p q, I s p q →
      I (step s a) (ev₁ s a ∨ (p ∧ ¬ stop₁ s a)) (ev₂ s a ∨ (q ∧ ¬ stop₂ s a)))
    (hs : I s False False) (as : List α) :
    I (run step s as) (Since step ev₁ stop₁ s as) (Since step ev₂ stop₂ s as) := by
  induction as using List.reverseRecOn with
  | nil => simpa only [eq_false not_since_nil, run_nil] using hs
  | append_singleton as a ih =>
      simp only [since_concat, run_append]
      exact hstep _ a _ _ ih

end StepRun
