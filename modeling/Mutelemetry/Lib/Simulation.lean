import Mutelemetry.Lib.Transition

/-!
# Simulations

One machine simulates another when each step of the concrete one, taken where a
condition holds, is a run of the abstract one with the same visible labels.
Then each run is.
-/

namespace Transition

variable {σ : Type u} {τ : Type v} {α : Type w} {β : Type x} {γ : Type y}

/-- `seen` and `seen'` are what is visible of a concrete and of an abstract
label, `D` holds of the abstract labels that are used. -/
structure Simulation (step : σ → α → Option σ) (step' : τ → β → Option τ) (C : σ → α → Prop)
    (D : β → Prop) (seen : α → List γ) (seen' : β → List γ) (R : σ → τ → Prop) : Prop where
  step : ∀ {s a s' t}, R s t → C s a → step s a = some s' → ∃ bs t',
    run step' t bs = some t' ∧ (∀ b ∈ bs, D b) ∧ bs.flatMap seen' = seen a ∧ R s' t'

variable {step : σ → α → Option σ} {step' : τ → β → Option τ} {C : σ → α → Prop} {D : β → Prop}
  {seen : α → List γ} {seen' : β → List γ} {R : σ → τ → Prop}

theorem Simulation.run (h : Simulation step step' C D seen seen' R)
    (hrun : Guarded step C s as s') (hst : R s t) : ∃ bs t', Transition.run step' t bs = some t' ∧
      (∀ b ∈ bs, D b) ∧ bs.flatMap seen' = as.flatMap seen ∧ R s' t' := by
  induction hrun generalizing t with
  | nil => exact ⟨[], t, rfl, by simp, rfl, hst⟩
  | cons hc hstep _ ih =>
    obtain ⟨bs, m, hm, hbs, hseen, hR⟩ := h.step hst hc hstep
    obtain ⟨cs, t', ht', hcs, hseen', hR'⟩ := ih hR
    refine ⟨bs ++ cs, t', run_append.mpr ⟨m, hm, ht'⟩, fun b hb => ?_, by simp [hseen, hseen'], hR'⟩
    exact (List.mem_append.mp hb).elim (hbs b) (hcs b)

end Transition
