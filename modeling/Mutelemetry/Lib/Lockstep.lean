import Mutelemetry.Lib.Stateful

/-!
# Two computations in lockstep

`Agree R Q x y`: from states related by `R` the two computations end alike,
with results related by `Q` or with the same fault, and in states that are
related again. A sequence of computations agrees when its parts do.
-/

namespace Lockstep

open Stateful

variable {ε σ τ α β γ δ : Type u}

inductive Ends (R : σ → τ → Prop) (Q : α → β → Prop) :
    EStateM.Result ε σ α → EStateM.Result ε τ β → Prop
  | ok : Q a b → R s t → Ends R Q (.ok a s) (.ok b t)
  | error : R s t → Ends R Q (.error e s) (.error e t)

def Agree (R : σ → τ → Prop) (Q : α → β → Prop) (x : EStateM ε σ α) (y : EStateM ε τ β) : Prop :=
  ∀ s t, R s t → Ends R Q (x.run s) (y.run t)

/-- Calls made one after the other; a fault ends its own call only. -/
def calls (f : ι → EStateM ε σ α) : σ → List ι → List (Except ε α) × σ
  | s, [] => ([], s)
  | s, i :: is =>
    match (f i).run s with
    | .ok a s => (.ok a :: (calls f s is).1, (calls f s is).2)
    | .error e s => (.error e :: (calls f s is).1, (calls f s is).2)

section
variable {R : σ → τ → Prop} {Q : α → β → Prop} {P : γ → δ → Prop}
  {x : EStateM ε σ α} {y : EStateM ε τ β}

theorem agree_pure (h : Q a b) : Agree (ε := ε) R Q (pure a) (pure b) :=
  fun _ _ hst => .ok h hst

theorem agree_throw (e : ε) : Agree R Q (throw e) (throw e) :=
  fun _ _ hst => .error hst

theorem agree_get : Agree (ε := ε) R R get get :=
  fun _ _ hst => .ok hst hst

theorem agree_modify {f : σ → σ} {g : τ → τ} (h : ∀ s t, R s t → R (f s) (g t)) :
    Agree (ε := ε) R Eq (modify f) (modify g) :=
  fun s t hst => .ok rfl (h s t hst)

theorem agree_bind {f : α → EStateM ε σ γ} {g : β → EStateM ε τ δ} (h : Agree R Q x y)
    (hfg : ∀ a b, Q a b → Agree R P (f a) (g b)) : Agree R P (x >>= f) (y >>= g) := by
  intro s t hst
  rw [run_seq, run_seq]
  have hxy := h s t hst
  generalize x.run s = r at hxy ⊢
  generalize y.run t = r' at hxy ⊢
  cases hxy with
  | ok hab hst' => exact hfg _ _ hab _ _ hst'
  | error hst' => exact .error hst'

theorem agree_forM {l : List ι} {f : ι → EStateM ε σ PUnit} {g : ι → EStateM ε τ PUnit}
    (h : ∀ i ∈ l, Agree R Eq (f i) (g i)) : Agree R Eq (l.forM f) (l.forM g) := by
  induction l with
  | nil => exact agree_pure rfl
  | cons i l ih =>
    simp only [List.forM_eq_forM, List.forM_cons]
    refine agree_bind (h i List.mem_cons_self) fun _ _ _ => ?_
    exact ih fun j hj => h j (List.mem_cons_of_mem _ hj)

/-- Computations that agree, called on and on. -/
theorem agree_calls {f : ι → EStateM ε σ α} {g : ι → EStateM ε τ α}
    (h : ∀ i, Agree R Eq (f i) (g i)) (hst : R s t) (is : List ι) :
    (calls f s is).1 = (calls g t is).1 ∧ R (calls f s is).2 (calls g t is).2 := by
  induction is generalizing s t with
  | nil => exact ⟨rfl, hst⟩
  | cons i is ih =>
    have hi := h i s t hst
    simp only [calls]
    generalize (f i).run s = r at hi ⊢
    generalize (g i).run t = r' at hi ⊢
    cases hi with
    | ok hab hst' =>
      obtain ⟨hout, hend⟩ := ih hst'
      exact ⟨by simp only [hab, hout], hend⟩
    | error hst' =>
      obtain ⟨hout, hend⟩ := ih hst'
      exact ⟨by simp only [hout], hend⟩

end

end Lockstep
