import Mutelemetry.Lib.Stateful

/-!
# Loops

Computations whose loops are given a number of turns, and that have no result
when a loop has used them up. What such a computation comes to when the turns
are enough is told apart from one that has no result however many there are: a
loop whose turns go down along a measure ends, and a loop that keeps an
invariant under which its test holds does not.
-/

namespace Loop

open Stateful

abbrev Timed (ε : Type u) := ExceptT ε Option

section
variable {ε σ α β : Type u} {never : ε}

/-- `while (cond) body`, tested `fuel` times at most. -/
def whileLoop (cond : σ → Bool) (body : σ → σ) : (fuel : Nat) → σ → Timed ε σ
  | 0, _ => ExceptT.mk none
  | fuel + 1, s => if cond s then whileLoop cond body fuel (body s) else pure s

/-- With turns enough, `f` comes to `x`; the fault `never` stands for no result. -/
structure Computes (never : ε) (f : Nat → Timed ε α) (x : Except ε α) : Prop where
  only : ∀ fuel r, (f fuel).run = some r → r = x ∧ x ≠ .error never
  ends : x ≠ .error never → ∃ fuel, ∀ n, fuel ≤ n → (f n).run = some x

-- ---------------------------------------------------------------------------
-- Sequences
-- ---------------------------------------------------------------------------

namespace Computes

theorem ends_iff (h : Computes never f x) : (∃ fuel r, (f fuel).run = some r) ↔ x ≠ .error never := by
  constructor
  · rintro ⟨fuel, r, hr⟩
    exact (h.only fuel r hr).2
  · intro hx
    obtain ⟨fuel, hfuel⟩ := h.ends hx
    exact ⟨fuel, x, hfuel fuel (Nat.le_refl _)⟩

theorem of_run {x : Except ε α} {f : Nat → Timed ε α} (h : ∀ n, (f n).run = some x)
    (hx : x ≠ .error never) : Computes never f x :=
  ⟨fun fuel _ hr => ⟨Option.some.inj (hr.symm.trans (h fuel)), hx⟩, fun _ => ⟨0, fun n _ => h n⟩⟩

theorem of_none {f : Nat → Timed ε α} (h : ∀ n, (f n).run = none) : Computes never f (.error never) :=
  ⟨fun fuel _ hr => absurd (hr.symm.trans (h fuel)) (by simp), fun hx => absurd rfl hx⟩

theorem pure (a : α) : Computes never (fun _ => Pure.pure a) (.ok a) := of_run (fun _ => rfl) (by simp)

theorem throw {e : ε} (h : e ≠ never) :
    Computes never (fun _ => MonadExcept.throw e : Nat → Timed ε α) (.error e) :=
  of_run (fun _ => rfl) (by simpa using h)

section
variable {f : Nat → Timed ε α} {g : α → Nat → Timed ε β}

theorem bind_ok (hf : Computes never f (.ok a)) (hg : Computes never (g a) y) :
    Computes never (fun n => f n >>= fun a => g a n) y := by
  constructor
  · intro fuel r hr
    rw [ExceptT.run_bind] at hr
    obtain ⟨x, hx, hr⟩ := Option.bind_eq_some_iff.mp hr
    obtain ⟨rfl, -⟩ := hf.only fuel x hx
    exact hg.only fuel r hr
  · intro hy
    obtain ⟨fuel, hfuel⟩ := hf.ends (by simp)
    obtain ⟨fuel', hfuel'⟩ := hg.ends hy
    refine ⟨max fuel fuel', fun n hn => ?_⟩
    rw [ExceptT.run_bind, hfuel n (Nat.le_trans (Nat.le_max_left _ _) hn)]
    exact hfuel' n (Nat.le_trans (Nat.le_max_right _ _) hn)

theorem bind_error (hf : Computes never f (.error e)) :
    Computes never (fun n => f n >>= fun a => g a n) (.error e) := by
  constructor
  · intro fuel r hr
    rw [ExceptT.run_bind] at hr
    obtain ⟨x, hx, hr⟩ := Option.bind_eq_some_iff.mp hr
    obtain ⟨rfl, hne⟩ := hf.only fuel x hx
    exact ⟨(Option.some.inj hr).symm, by simpa using hne⟩
  · intro hne
    obtain ⟨fuel, hfuel⟩ := hf.ends (by simpa using hne)
    refine ⟨fuel, fun n hn => ?_⟩
    rw [ExceptT.run_bind, hfuel n hn]
    rfl

theorem bind {h : α → Except ε β} (hf : Computes never f x)
    (hg : ∀ a, x = .ok a → Computes never (g a) (h a)) :
    Computes never (fun n => f n >>= fun a => g a n) (x >>= h) := by
  cases x with
  | error e => exact hf.bind_error
  | ok a => exact hf.bind_ok (hg a rfl)

end

theorem mapM {l : List α} {f : α → Nat → Timed ε β} {g : α → Except ε β}
    (h : ∀ a ∈ l, Computes never (f a) (g a)) :
    Computes never (fun n => l.mapM (f · n)) (l.mapM g) := by
  induction l with
  | nil => exact .pure []
  | cons a l ih =>
    rw [List.forall_mem_cons] at h
    simp only [List.mapM_cons]
    exact h.1.bind fun b _ => (ih h.2).bind fun bs _ => .pure (b :: bs)

end Computes

-- ---------------------------------------------------------------------------
-- Loops
-- ---------------------------------------------------------------------------

variable {cond : σ → Bool} {body : σ → σ}

/-- A loop that goes down ends where its test fails, with its invariant. -/
theorem whileLoop_ends (never : ε) (I : σ → Prop) (μ : σ → Nat)
    (hstep : ∀ s, I s → cond s = true → I (body s) ∧ μ (body s) < μ s) (h : I s) :
    ∃ s', I s' ∧ cond s' = false ∧ Computes never (whileLoop cond body · s) (.ok s') := by
  induction hn : μ s using Nat.strongRecOn generalizing s with
  | ind n ih =>
    cases hc : cond s with
    | false =>
      refine ⟨s, h, hc, fun fuel r hr => ?_, fun _ => ⟨1, fun n hn => ?_⟩⟩
      · cases fuel with
        | zero => cases hr
        | succ fuel =>
          rw [whileLoop, if_neg (by simp [hc])] at hr
          exact ⟨(Option.some.inj hr).symm, by simp⟩
      · obtain ⟨fuel, rfl⟩ := Nat.exists_eq_add_of_le' hn
        rw [whileLoop, if_neg (by simp [hc])]
        rfl
    | true =>
      obtain ⟨hbody, hlt⟩ := hstep s h hc
      obtain ⟨s', hs', hc', honly, hends⟩ := ih _ (hn ▸ hlt) hbody rfl
      refine ⟨s', hs', hc', fun fuel r hr => ?_, fun hx => ?_⟩
      · cases fuel with
        | zero => cases hr
        | succ fuel =>
          rw [whileLoop, if_pos hc] at hr
          exact honly fuel r hr
      · obtain ⟨fuel, hfuel⟩ := hends hx
        refine ⟨fuel + 1, fun n hn => ?_⟩
        obtain ⟨m, rfl⟩ := Nat.exists_eq_add_of_le' hn
        rw [← Nat.add_assoc, whileLoop, if_pos hc]
        exact hfuel _ (Nat.le_add_left _ _)

theorem whileLoop_never (I : σ → Prop) (hstep : ∀ s, I s → cond s = true ∧ I (body s)) (h : I s) :
    Computes never (whileLoop cond body · s) (.error never) := by
  refine .of_none fun fuel => ?_
  induction fuel generalizing s with
  | zero => rfl
  | succ fuel ih =>
    obtain ⟨hc, hbody⟩ := hstep s h
    rw [whileLoop, if_pos hc]
    exact ih hbody

end

end Loop
