import Mutelemetry.Lib.Transition

/-!
# Progress

A machine that does work of its own while others add to it. Each step of its own
takes a rank down, each step of the others adds at most a fixed cost; so between
two additions it can only do so much, and the whole of a run is bounded.

And what a machine can still do: a state that some run leads to, found by a rank
that some run takes down.
-/

namespace Transition

variable {σ : Type u} {α : Type v}

/-- `own` tells the steps of the machine from those of the others. -/
structure Ranked (step : σ → α → Option σ) (C : σ → α → Prop) (I : σ → Prop) (own : α → Bool)
    (rank : σ → Nat) (cost : Nat) : Prop where
  keep : ∀ {s a s'}, I s → C s a → step s a = some s' → I s'
  down : ∀ {s a s'}, I s → C s a → own a = true → step s a = some s' → rank s' < rank s
  up : ∀ {s a s'}, I s → C s a → own a = false → step s a = some s' → rank s' ≤ rank s + cost

variable {step : σ → α → Option σ} {C : σ → α → Prop} {I : σ → Prop} {own : α → Bool}
  {rank : σ → Nat} {cost : Nat}

/-- The steps of its own are paid for by the rank and by what the others add. -/
theorem Ranked.bound (h : Ranked step C I own rank cost) (hrun : Guarded step C s as s')
    (hs : I s) : as.countP own + rank s' ≤ rank s + cost * as.countP (!own ·) := by
  induction hrun with
  | nil => simp
  | @cons s a s₁ as s' hc hstep _ ih =>
    have htail := ih (h.keep hs hc hstep)
    cases hown : own a with
    | true =>
      have hdown := h.down hs hc hown hstep
      rw [List.countP_cons_of_pos hown, List.countP_cons_of_neg (by simp [hown])]
      omega
    | false =>
      have hup := h.up hs hc hown hstep
      rw [List.countP_cons_of_neg (by simp [hown]), List.countP_cons_of_pos (by simp [hown]),
        Nat.mul_succ]
      omega

-- ---------------------------------------------------------------------------
-- What can still be reached
-- ---------------------------------------------------------------------------

/-- Some run whose labels meet `C` leads from `s` to a state with `P`. -/
def Can (step : σ → α → Option σ) (C : σ → α → Prop) (P : σ → Prop) (s : σ) : Prop :=
  ∃ as s', Guarded step C s as s' ∧ P s'

variable {P Q : σ → Prop}

theorem Can.now (h : P s) : Can step C P s := ⟨[], s, .nil, h⟩

theorem Can.cons (hC : C s a) (hs : step s a = some m) (h : Can step C P m) : Can step C P s := by
  obtain ⟨as, s', has, hp⟩ := h
  exact ⟨a :: as, s', .cons hC hs has, hp⟩

theorem Can.bind (h : Can step C Q s) (hQ : ∀ s', Q s' → Can step C P s') : Can step C P s := by
  obtain ⟨as, m, hm, hq⟩ := h
  obtain ⟨bs, s', hs', hp⟩ := hQ m hq
  exact ⟨as ++ bs, s', hm.append hs', hp⟩

theorem Can.keep (h : Can step C P s) (I : σ → Prop)
    (keep : ∀ {s a s'}, I s → step s a = some s' → I s') (hs : I s) :
    Can step C (fun s' => I s' ∧ P s') s := by
  obtain ⟨as, s', has, hp⟩ := h
  exact ⟨as, s', has, run_invariant I keep has.run hs, hp⟩

/-- What some run always brings nearer can be reached. -/
theorem Can.descend (rank : σ → Nat) (I : σ → Prop)
    (nearer : ∀ s, I s → P s ∨ Can step C (fun s' => I s' ∧ rank s' < rank s) s)
    (hs : I s) : Can step C P s := by
  induction hn : rank s using Nat.strongRecOn generalizing s with
  | ind n ih =>
    obtain hp | hcan := nearer s hs
    · exact .now hp
    · exact hcan.bind fun s' ⟨hs', hlt⟩ => ih (rank s') (hn ▸ hlt) hs' rfl

end Transition
