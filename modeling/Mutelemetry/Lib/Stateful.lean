import Mathlib.Data.List.Basic

/-!
# Computations with faults

Rules for `Except` and for `EStateM`, which keeps the state a fault occurs in.
A sequence is taken apart at its first part.
-/

namespace Stateful

section
variable {ε : Type u} {α β : Type v}

@[simp] theorem ok_bind (a : α) (f : α → Except ε β) : (Except.ok a >>= f) = f a := rfl

@[simp] theorem error_bind (e : ε) (f : α → Except ε β) : (Except.error e >>= f) = .error e := rfl

@[simp] theorem map_ok (f : α → β) (a : α) : (f <$> Except.ok a : Except ε β) = .ok (f a) := rfl

theorem pure_eq_ok (a : α) : (pure a : Except ε α) = .ok a := rfl

theorem map_eq_ok {x : Except ε α} {f : α → β} : x.map f = .ok b ↔ ∃ a, x = .ok a ∧ f a = b := by
  cases x <;> simp [Except.map]

theorem map_eq_error {x : Except ε α} {f : α → β} : x.map f = .error e ↔ x = .error e := by
  cases x <;> simp [Except.map]

theorem bind_eq_error {x : Except ε α} {f : α → Except ε β} :
    x >>= f = .error e ↔ x = .error e ∨ ∃ a, x = .ok a ∧ f a = .error e := by
  cases x <;> simp

theorem bind_eq_ok {x : Except ε α} {f : α → Except ε β} :
    x >>= f = .ok b ↔ ∃ a, x = .ok a ∧ f a = .ok b := by
  cases x <;> simp

theorem mapM_eq_error {f : α → Except ε β} {l : List α} (h : l.mapM f = .error e) :
    ∃ a ∈ l, f a = .error e := by
  induction l with
  | nil => cases h
  | cons a l ih =>
    rw [List.mapM_cons] at h
    obtain h | ⟨b, -, h⟩ := bind_eq_error.mp h
    · exact ⟨a, List.mem_cons_self, h⟩
    · obtain h | ⟨bs, -, h⟩ := bind_eq_error.mp h
      · obtain ⟨a', ha', h⟩ := ih h
        exact ⟨a', List.mem_cons_of_mem _ ha', h⟩
      · cases h

theorem mapM_ok_iff {f : α → Except ε β} {l : List α} :
    (∃ l', l.mapM f = .ok l') ↔ ∀ a ∈ l, ∃ b, f a = .ok b := by
  induction l with
  | nil => simp [pure_eq_ok]
  | cons a l ih =>
    rw [List.mapM_cons, List.forall_mem_cons, ← ih]
    constructor
    · rintro ⟨l', h⟩
      obtain ⟨b, hb, h⟩ := bind_eq_ok.mp h
      obtain ⟨bs, hbs, -⟩ := bind_eq_ok.mp h
      exact ⟨⟨b, hb⟩, bs, hbs⟩
    · rintro ⟨⟨b, hb⟩, bs, hbs⟩
      rw [hb, ok_bind, hbs]
      exact ⟨_, rfl⟩

end

variable {ε σ α β : Type u}

-- no `rfl` lemma: the kernel would unfold whole computations to check its use
theorem run_seq (x : EStateM ε σ α) (f : α → EStateM ε σ β) (s : σ) :
    (x >>= f).run s = match x.run s with
      | .ok a s => (f a).run s
      | .error e s => .error e s := by
  rw [EStateM.run_bind]
  cases x.run s with
  | ok | error => rfl

theorem run_seq_ok {x : EStateM ε σ α} (h : x.run s = .ok a s') (f : α → EStateM ε σ β) :
    (x >>= f).run s = (f a).run s' := by
  rw [run_seq, h]

theorem run_seq_error {x : EStateM ε σ α} (h : x.run s = .error e s') (f : α → EStateM ε σ β) :
    (x >>= f).run s = .error e s' := by
  rw [run_seq, h]

theorem run_forM_error {l : List γ} {f : γ → EStateM ε σ PUnit} (h : (l.forM f).run s = .error e s') :
    ∃ a ∈ l, ∃ m, (f a).run m = .error e s' := by
  induction l generalizing s with
  | nil => cases h
  | cons a l ih =>
    simp only [List.forM_eq_forM, List.forM_cons, run_seq] at h
    cases ha : (f a).run s with
    | error e' m =>
      rw [ha] at h
      cases h
      exact ⟨a, by simp, s, ha⟩
    | ok u m =>
      rw [ha] at h
      obtain ⟨b, hb, hm⟩ := ih h
      exact ⟨b, List.mem_cons_of_mem _ hb, hm⟩

end Stateful
