import Mathlib.Data.List.Forall2

/-!
# Lists related member by member

How `List.Forall₂` goes with the parts of a list: what is appended, what stands
before the first member with a property, and what each member is related to.
-/

namespace Related

open List

section
variable {R : α → β → Prop} {as : List α} {bs : List β}

theorem append_left_iff : Forall₂ R (as ++ as') bs ↔
    ∃ bs₁ bs₂, bs = bs₁ ++ bs₂ ∧ Forall₂ R as bs₁ ∧ Forall₂ R as' bs₂ := by
  constructor
  · intro h
    induction as generalizing bs with
    | nil => exact ⟨[], bs, rfl, .nil, h⟩
    | cons a as ih =>
      cases h with
      | cons hab h =>
        obtain ⟨bs₁, bs₂, rfl, h₁, h₂⟩ := ih h
        exact ⟨_, bs₂, rfl, .cons hab h₁, h₂⟩
  · rintro ⟨bs₁, bs₂, rfl, h₁, h₂⟩
    exact rel_append h₁ h₂

/-- Where a property of the one side is one of the other, both sides have it
first at the same place. -/
theorem takeWhile {p : α → Bool} {q : β → Bool} (h : Forall₂ R as bs)
    (hpq : ∀ a b, R a b → p a = q b) : Forall₂ R (as.takeWhile p) (bs.takeWhile q) := by
  induction h with
  | nil => exact .nil
  | @cons a b _ _ hab _ ih =>
    rw [takeWhile_cons, takeWhile_cons, hpq a b hab]
    split
    · exact .cons hab ih
    · exact .nil

theorem dropWhile {p : α → Bool} {q : β → Bool} (h : Forall₂ R as bs)
    (hpq : ∀ a b, R a b → p a = q b) : Forall₂ R (as.dropWhile p) (bs.dropWhile q) := by
  induction h with
  | nil => exact .nil
  | @cons a b _ _ hab h ih =>
    rw [dropWhile_cons, dropWhile_cons, hpq a b hab]
    split
    · exact ih
    · exact .cons hab h

theorem exists_of_mem_right (h : Forall₂ R as bs) (hb : b ∈ bs) : ∃ a ∈ as, R a b := by
  induction h with
  | nil => cases hb
  | cons hab _ ih =>
    obtain rfl | hb := mem_cons.mp hb
    · exact ⟨_, mem_cons_self, hab⟩
    · obtain ⟨a, ha, hr⟩ := ih hb
      exact ⟨a, mem_cons_of_mem _ ha, hr⟩

theorem exists_left (h : ∀ b ∈ bs, ∃ a, R a b) : ∃ as, Forall₂ R as bs := by
  induction bs with
  | nil => exact ⟨[], .nil⟩
  | cons b bs ih =>
    obtain ⟨⟨a, ha⟩, h⟩ := forall_mem_cons.mp h
    obtain ⟨as, has⟩ := ih h
    exact ⟨a :: as, .cons ha has⟩

end

theorem prefix_right {R : α → β → Prop} (h : Forall₂ R as bs) (hb : bs' <+: bs) :
    ∃ as', as' <+: as ∧ Forall₂ R as' bs' := by
  obtain ⟨rest, rfl⟩ := hb
  exact ⟨_, take_prefix _ _, forall₂_take_append _ _ _ h⟩

end Related
