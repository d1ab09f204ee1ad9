import Mathlib.Data.Finset.Card
import Mathlib.Data.Finset.Filter
import Mathlib.Logic.Relation

/-!
# Height of a relation

How far a relation can be followed. A recursion along a relation without cycles
needs no more levels than there are elements it can reach.
-/

namespace Height

open Relation

variable {α : Type u} {r : α → α → Prop}

/-- From `a`, no chain of `r` has more than `n` elements. -/
def Below (r : α → α → Prop) : Nat → α → Prop
  | 0, _ => False
  | n + 1, a => ∀ b, r a b → Below r n b

theorem Below.succ (h : Below r n a) : Below r (n + 1) a := by
  induction n generalizing a with
  | zero => exact h.elim
  | succ n ih => exact fun b hb => ih (h b hb)

theorem Below.transGen (h : Below r (n + 1) a) (hab : TransGen r a b) : Below r n b := by
  induction hab with
  | single hab => exact h _ hab
  | tail _ hbc ih =>
    cases n with
    | zero => exact ih.elim
    | succ n => exact (ih _ hbc).succ

theorem Below.not_transGen_self (h : Below r n a) : ¬ TransGen r a a := by
  intro ha
  induction n with
  | zero => exact h
  | succ n ih => exact ih (h.transGen ha)

/-- No element that `a` leads to leads to itself. -/
def Acyclic (r : α → α → Prop) (a : α) : Prop := ∀ b, ReflTransGen r a b → ¬ TransGen r b b

theorem Acyclic.step (h : Acyclic r a) (hab : r a b) : Acyclic r b :=
  fun c hc => h c (hc.head hab)

theorem Acyclic.mono {s : α → α → Prop} (h : Acyclic s a) (hrs : ∀ a b, r a b → s a b) :
    Acyclic r a :=
  fun b hb hloop => h b (ReflTransGen.mono hrs _ _ hb) (TransGen.mono hrs _ _ hloop)

theorem Below.acyclic (h : Below r n a) : Acyclic r a := by
  intro b hab
  obtain rfl | hab := reflTransGen_iff_eq_or_transGen.mp hab
  · exact h.not_transGen_self
  · cases n with
    | zero => exact h.elim
    | succ n => exact (h.transGen hab).not_transGen_self

/-- The elements behind `a` bound its height: behind a successor there are fewer. -/
theorem Acyclic.below_of_card [DecidableRel (TransGen r)] {s : Finset α} (h : Acyclic r a)
    (hs : ∀ b, ReflTransGen r a b → b ∈ s) (hcard : (s.filter (TransGen r a)).card < n) :
    Below r n a := by
  induction n generalizing a with
  | zero => exact absurd hcard (Nat.not_lt_zero _)
  | succ n ih =>
    intro b hab
    refine ih (h.step hab) (fun c hc => hs c (hc.head hab)) ?_
    have hlt : s.filter (TransGen r b) ⊂ s.filter (TransGen r a) := by
      refine Finset.ssubset_iff_subset_ne.mpr ⟨?_, fun heq => ?_⟩
      · intro c hc
        obtain ⟨hcs, hbc⟩ := Finset.mem_filter.mp hc
        exact Finset.mem_filter.mpr ⟨hcs, hbc.head hab⟩
      · have hb : b ∈ s.filter (TransGen r a) :=
          Finset.mem_filter.mpr ⟨hs b (.single hab), .single hab⟩
        rw [← heq] at hb
        exact h b (.single hab) (Finset.mem_filter.mp hb).2
    have := Finset.card_lt_card hlt
    omega

theorem Acyclic.below {s : Finset α} (h : Acyclic r a) (hs : ∀ b, ReflTransGen r a b → b ∈ s) :
    Below r s.card a := by
  classical
  refine h.below_of_card hs (Finset.card_lt_card ?_)
  refine Finset.filter_ssubset.mpr ⟨a, hs a .refl, h a .refl⟩

end Height
