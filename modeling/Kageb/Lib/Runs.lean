import Mathlib

/-! Runs of a system that takes labelled steps: what every step keeps, a whole run keeps. -/

namespace Runs

variable {σ ε : Type*} {step : σ → ε → σ → Prop}

inductive Run (step : σ → ε → σ → Prop) : σ → List ε → σ → Prop
  | nil (s : σ) : Run step s [] s
  | cons {s t u : σ} {e : ε} {es : List ε} : step s e t → Run step t es u → Run step s (e :: es) u

theorem Run.append {s t u : σ} {es fs : List ε} (h : Run step s es t) (h' : Run step t fs u) :
    Run step s (es ++ fs) u := by
  induction h with
  | nil => exact h'
  | cons hstep _ ih => exact .cons hstep (ih h')

/-- A run of one system is a run of another that makes the same steps on what `f` shows of it. -/
theorem Run.map {τ : Type*} {step' : τ → ε → τ → Prop} (f : σ → τ)
    (hstep : ∀ {s e t}, step s e t → step' (f s) e (f t)) {s t : σ} {es : List ε}
    (h : Run step s es t) : Run step' (f s) es (f t) := by
  induction h with
  | nil s => exact .nil (f s)
  | cons hfirst _ ih => exact .cons (hstep hfirst) ih

theorem Run.invariant {inv : σ → Prop} (hstep : ∀ {s e t}, inv s → step s e t → inv t)
    {s t : σ} {es : List ε} (h : Run step s es t) (hs : inv s) : inv t := by
  induction h with
  | nil => exact hs
  | cons hfirst _ ih => exact ih (hstep hs hfirst)

/-- The same for an invariant that also speaks of the labels so far. -/
theorem Run.invariant_labels {inv : List ε → σ → Prop}
    (hstep : ∀ {es s e t}, inv es s → step s e t → inv (es ++ [e]) t) {s t : σ} {es fs : List ε}
    (h : Run step s fs t) (hs : inv es s) : inv (es ++ fs) t := by
  induction h generalizing es with
  | nil => rwa [List.append_nil]
  | @cons s t u e fs hfirst _ ih =>
    have hrest := ih (hstep hs hfirst)
    rwa [List.append_assoc] at hrest

end Runs
