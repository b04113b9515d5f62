import Mathlib.Data.List.Basic

namespace Woodhouse.Effects

section
variable {σ τ ι α : Type}

/-- What a component answers to a sequence of inputs, and the state it ends in. -/
def transcript (step : σ → ι → α × σ) : σ → List ι → List α × σ
  | s,[] => ([],s)
  | s,i::rest => ((step s i).1::(transcript step (step s i).2 rest).1,
      (transcript step (step s i).2 rest).2)

/-- Two components in step: what relates their states may speak of the inputs to come. -/
theorem transcript_agrees {step : σ → ι → α × σ} {step' : τ → ι → α × τ}
    {R : List ι → σ → τ → Prop}
    (agree : ∀ i rest s t, R (i::rest) s t →
      (step s i).1 = (step' t i).1 ∧ R rest (step s i).2 (step' t i).2)
    {inputs : List ι} {s : σ} {t : τ} (h : R inputs s t) :
    (transcript step s inputs).1 = (transcript step' t inputs).1 ∧
      R [] (transcript step s inputs).2 (transcript step' t inputs).2 := by
  induction inputs generalizing s t with
  | nil => exact ⟨rfl, h⟩
  | cons i rest ih =>
    obtain ⟨hanswer, hnext⟩ := agree i rest s t h
    obtain ⟨hrest, hlast⟩ := ih hnext
    exact ⟨by simp only [transcript, hanswer, hrest], hlast⟩

end

end Woodhouse.Effects
