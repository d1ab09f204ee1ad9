import Mathlib.Data.List.Induction

/-!
# Runs of a labelled machine

A machine is a partial step function: a label that cannot be taken gives
`none`. A run takes a list of labels; a guarded run takes each of them in a
state where a condition holds. The invariant rules are stated once, for both.
-/

namespace Transition

variable {σ : Type u} {α : Type v}

def run (step : σ → α → Option σ) : σ → List α → Option σ
  | s, [] => some s
  | s, a :: as => (step s a).bind fun s' => run step s' as

/-- A run in which `C` holds of each label and the state it is taken in. -/
inductive Guarded (step : σ → α → Option σ) (C : σ → α → Prop) : σ → List α → σ → Prop
  | nil : Guarded step C s [] s
  | cons : C s a → step s a = some s' → Guarded step C s' as s'' → Guarded step C s (a :: as) s''

/-- What is seen along a run: at each label, something of it and of the state it
is taken in. -/
def trace (step : σ → α → Option σ) (seen : σ → α → List β) : σ → List α → List β
  | _, [] => []
  | s, a :: as => seen s a ++ (match step s a with
    | some s' => trace step seen s' as
    | none => [])

def Reachable (step : σ → α → Option σ) (s₀ s : σ) : Prop := ∃ as, run step s₀ as = some s

section
variable {step : σ → α → Option σ} {C : σ → α → Prop}

@[simp] theorem run_nil : run step s [] = some s := rfl

theorem run_cons : run step s (a :: as) = some s' ↔
    ∃ m, step s a = some m ∧ run step m as = some s' := by
  simp [run, Option.bind_eq_some_iff]

theorem run_append : run step s (as ++ bs) = some s' ↔
    ∃ m, run step s as = some m ∧ run step m bs = some s' := by
  induction as generalizing s with
  | nil => simp
  | cons a as ih =>
    rw [List.cons_append, run_cons]
    constructor
    · rintro ⟨m, hm, h⟩
      obtain ⟨n, hn, h'⟩ := ih.mp h
      exact ⟨n, run_cons.mpr ⟨m, hm, hn⟩, h'⟩
    · rintro ⟨n, hn, h'⟩
      obtain ⟨m, hm, h⟩ := run_cons.mp hn
      exact ⟨m, hm, ih.mpr ⟨n, h, h'⟩⟩

theorem run_concat : run step s (as ++ [a]) = some s' ↔
    ∃ m, run step s as = some m ∧ step m a = some s' := by
  simp only [run_append, run_cons, run_nil, Option.some_inj, exists_eq_right]

theorem trace_append {seen : σ → α → List β} (h : run step s as = some m) (bs : List α) :
    trace step seen s (as ++ bs) = trace step seen s as ++ trace step seen m bs := by
  induction as generalizing s with
  | nil =>
    cases h
    rfl
  | cons a as ih =>
    obtain ⟨n, hn, h⟩ := run_cons.mp h
    simp only [List.cons_append, trace, hn, ih h, List.append_assoc]

theorem trace_concat {seen : σ → α → List β} (h : run step s as = some m) (a : α) :
    trace step seen s (as ++ [a]) = trace step seen s as ++ seen m a := by
  rw [trace_append h]
  congr 1
  simp only [trace]
  split <;> simp

/-- What every step keeps, every run keeps. -/
theorem run_invariant (I : σ → Prop) (keep : ∀ {s a s'}, I s → step s a = some s' → I s')
    (h : run step s as = some s') (hs : I s) : I s' := by
  induction as generalizing s with
  | nil => cases h; exact hs
  | cons a as ih =>
    obtain ⟨m, hm, h⟩ := run_cons.mp h
    exact ih h (keep hs hm)

/-- The invariant may also speak of the labels taken so far. -/
theorem run_history (I : List α → σ → Prop)
    (keep : ∀ {past s a s'}, I past s → step s a = some s' → I (past ++ [a]) s')
    (h : run step s as = some s') (hs : I past s) : I (past ++ as) s' := by
  induction as generalizing s past with
  | nil => cases h; simpa using hs
  | cons a as ih =>
    obtain ⟨m, hm, h⟩ := run_cons.mp h
    simpa using ih h (keep hs hm)

theorem Guarded.run (h : Guarded step C s as s') : run step s as = some s' := by
  induction h with
  | nil => rfl
  | cons _ hs _ ih => exact run_cons.mpr ⟨_, hs, ih⟩

theorem Guarded.append (h : Guarded step C s as m) (h' : Guarded step C m bs s') :
    Guarded step C s (as ++ bs) s' := by
  induction h with
  | nil => exact h'
  | cons hc hs _ ih => exact .cons hc hs (ih h')

theorem Guarded.of_run (h : Transition.run step s as = some s') (hC : ∀ a ∈ as, ∀ m, C m a) :
    Guarded step C s as s' := by
  induction as generalizing s with
  | nil =>
    cases h
    exact .nil
  | cons a as ih =>
    obtain ⟨m, hm, h⟩ := run_cons.mp h
    exact .cons (hC a (by simp) s) hm (ih h fun b hb => hC b (List.mem_cons_of_mem _ hb))

theorem Guarded.invariant (I : σ → Prop)
    (keep : ∀ {s a s'}, I s → C s a → step s a = some s' → I s')
    (h : Guarded step C s as s') (hs : I s) : I s' := by
  induction h with
  | nil => exact hs
  | cons hc hstep _ ih => exact ih (keep hs hc hstep)

theorem Guarded.history (I : List α → σ → Prop)
    (keep : ∀ {past s a s'}, I past s → C s a → step s a = some s' → I (past ++ [a]) s')
    (h : Guarded step C s as s') (hs : I past s) : I (past ++ as) s' := by
  induction h generalizing past with
  | nil => simpa using hs
  | cons hc hstep _ ih => simpa using ih (keep hs hc hstep)

theorem guarded_iff : Guarded step C s as s' ↔ run step s as = some s' ∧
    ∀ past a rest m, as = past ++ a :: rest → run step s past = some m → C m a := by
  constructor
  · intro h
    refine ⟨h.run, ?_⟩
    induction h with
    | nil => simp
    | @cons s a s' as s'' hc hs h ih =>
      intro past b rest m heq hm
      cases past with
      | nil =>
        cases heq
        cases hm
        exact hc
      | cons a' past =>
        obtain ⟨rfl, htail⟩ := List.cons.inj heq
        obtain ⟨n, hn, hm⟩ := run_cons.mp hm
        cases hs.symm.trans hn
        exact ih past b rest m htail hm
  · rintro ⟨h, hC⟩
    induction as generalizing s with
    | nil =>
      cases h
      exact .nil
    | cons a as ih =>
      obtain ⟨m, hm, h⟩ := run_cons.mp h
      refine .cons (hC [] a as s rfl rfl) hm (ih h fun past b rest n heq hn => ?_)
      exact hC (a :: past) b rest n (by rw [heq, List.cons_append]) (run_cons.mpr ⟨m, hm, hn⟩)

/-- A condition that a step meets exactly when it keeps `I` is met by all steps
of the runs that have `I` all along, and of no others. -/
theorem guarded_iff_history (I : List α → σ → Prop) (hinit : I [] s₀)
    (keep : ∀ {past s a s'}, run step s₀ past = some s → I past s → step s a = some s' →
      (C s a ↔ I (past ++ [a]) s')) (h : run step s₀ as = some s) :
    (∀ past rest m, as = past ++ rest → run step s₀ past = some m → I past m) ↔
      Guarded step C s₀ as s := by
  rw [guarded_iff, and_iff_right h]
  constructor
  · intro hI past a rest m heq hm
    rw [heq, run_append] at h
    obtain ⟨m', hm', h⟩ := h
    cases hm.symm.trans hm'
    obtain ⟨n, hn, -⟩ := run_cons.mp h
    refine (keep hm (hI past _ m heq hm) hn).mpr (hI _ rest n ?_ (run_concat.mpr ⟨m, hm, hn⟩))
    rw [heq, List.append_assoc, List.singleton_append]
  · intro hC past rest m heq hm
    induction past using List.reverseRecOn generalizing rest m with
    | nil =>
      cases hm
      exact hinit
    | append_singleton past a ih =>
      obtain ⟨n, hn, ha⟩ := run_concat.mp hm
      rw [List.append_assoc, List.singleton_append] at heq
      exact (keep hn (ih _ _ heq hn) ha).mp (hC past a rest n heq hn)

theorem Reachable.invariant (I : σ → Prop) (keep : ∀ {s a s'}, I s → step s a = some s' → I s')
    (h : Reachable step s₀ s) (h₀ : I s₀) : I s := by
  obtain ⟨as, has⟩ := h
  exact run_invariant I keep has h₀

end

end Transition
