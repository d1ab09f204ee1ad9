import Mutelemetry.Lib.Stateful

/-!
# Reads of a text and what follows it

A computation that fails beyond the end of a text gives the same for every text
that begins with one it succeeds on.
-/

namespace Prefix

open Stateful

/-- What is read of a text is read of every text that begins with it. -/
def Stable (f : List α → Except ε β) : Prop :=
  ∀ ⦃m b r⦄, m <+: b → f m = .ok r → f b = .ok r

theorem stable_const (x : Except ε β) : Stable fun _ : List α => x := fun _ _ _ _ h => h

section
universe u v
variable {α : Type u} {ε β γ : Type v}

theorem Stable.bind {f : List α → Except ε β} {g : β → List α → Except ε γ} (hf : Stable f)
    (hg : ∀ a, Stable (g a)) : Stable fun m => f m >>= fun a => g a m := by
  intro m b r hm h
  obtain ⟨a, ha, hr⟩ := bind_eq_ok.mp h
  exact bind_eq_ok.mpr ⟨a, hf hm ha, hg a hm hr⟩

theorem Stable.map {f : List α → Except ε β} (hf : Stable f) (g : β → γ) :
    Stable fun m => (f m).map g := by
  intro m b r hm h
  obtain ⟨a, ha, hr⟩ := map_eq_ok.mp h
  exact map_eq_ok.mpr ⟨a, hf hm ha, hr⟩

theorem stable_ite {c : Prop} [Decidable c] {f g : List α → Except ε β} (hf : Stable f)
    (hg : Stable g) : Stable fun m => if c then f m else g m := by
  by_cases h : c
  · simpa only [if_pos h] using hf
  · simpa only [if_neg h] using hg

theorem stable_mapM {f : List α → β → Except ε γ} (hf : ∀ a, Stable fun m => f m a) (l : List β) :
    Stable fun m => l.mapM (f m) := by
  induction l with
  | nil => exact stable_const _
  | cons a l ih =>
    simp only [List.mapM_cons]
    exact (hf a).bind fun b => ih.bind fun bs => stable_const _

end

end Prefix
