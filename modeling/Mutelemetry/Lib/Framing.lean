import Mathlib.Data.List.Basic

/-!
# Records that tell their own length

A sequence of such records is read back from their concatenation, and from a
part of it as far as the part goes.
-/

/-- `next` reads one record off a stream, and fails on a proper part of one. -/
structure Framing (α : Type u) (β : Type v) where
  bytes : β → List α
  next : List α → Option (β × List α)
  next_bytes : ∀ r rest, next (bytes r ++ rest) = some (r, rest)
  next_part : ∀ {r part}, part <+: bytes r → part ≠ bytes r → next part = none
  next_shorter : ∀ {bs r rest}, next bs = some (r, rest) → rest.length < bs.length

namespace Framing

variable {α : Type u} {β : Type v} (f : Framing α β)

def split (bs : List α) : List β × List α :=
  match _h : f.next bs with
  | none => ([], bs)
  | some (r, rest) => (r :: (split rest).1, (split rest).2)
termination_by bs.length
decreasing_by all_goals exact f.next_shorter ‹_›

theorem split_none (h : f.next bs = none) : f.split bs = ([], bs) := by
  rw [split]
  split
  · rfl
  · rename_i h'
    cases h.symm.trans h'

theorem split_some (h : f.next bs = some (r, rest)) :
    f.split bs = (r :: (f.split rest).1, (f.split rest).2) := by
  rw [split]
  split
  · rename_i h'
    cases h.symm.trans h'
  · rename_i h'
    cases h.symm.trans h'
    rfl

theorem next_nil : f.next [] = none := by
  cases h : f.next [] with
  | none => rfl
  | some r =>
    have hlen := f.next_shorter h
    simp at hlen

theorem split_bytes_append (rs : List β) (bs : List α) :
    f.split (rs.flatMap f.bytes ++ bs) = (rs ++ (f.split bs).1, (f.split bs).2) := by
  induction rs with
  | nil => rfl
  | cons r rs ih =>
    rw [List.flatMap_cons, List.append_assoc, f.split_some (f.next_bytes r _), ih]
    rfl

theorem split_bytes (rs : List β) : f.split (rs.flatMap f.bytes) = (rs, []) := by
  have h := f.split_bytes_append rs []
  rw [f.split_none f.next_nil] at h
  simpa using h

/-- A part of a stream is some whole records and a proper part of the next. -/
theorem prefix_cut {rs : List β} (h : bs <+: rs.flatMap f.bytes) :
    ∃ done rest tail, rs = done ++ rest ∧ bs = done.flatMap f.bytes ++ tail ∧
      (tail = [] ∨ ∃ r ∈ rest.head?, tail <+: f.bytes r ∧ tail ≠ f.bytes r) := by
  induction rs generalizing bs with
  | nil => exact ⟨[], [], [], rfl, List.prefix_nil.mp h, .inl rfl⟩
  | cons r rs ih =>
    rw [List.flatMap_cons] at h
    obtain hpart | ⟨bs', rfl⟩ := List.prefix_or_prefix_of_prefix h (List.prefix_append (f.bytes r) _)
    · by_cases hr : bs = f.bytes r
      · exact ⟨[r], rs, [], rfl, by simp [hr], .inl rfl⟩
      · exact ⟨[], r :: rs, bs, rfl, rfl, .inr ⟨r, rfl, hpart, hr⟩⟩
    · obtain ⟨done, rest, tail, rfl, rfl, htail⟩ := ih ((List.prefix_append_right_inj _).mp h)
      exact ⟨r :: done, rest, tail, rfl, by simp, htail⟩

/-- So the records read from a part of a stream are the first ones of it. -/
theorem split_prefix {rs : List β} (h : bs <+: rs.flatMap f.bytes) :
    ∃ n tail, f.split bs = (rs.take n, tail) ∧ bs = (rs.take n).flatMap f.bytes ++ tail ∧
      (tail = [] ∨ ∃ r ∈ rs[n]?, tail <+: f.bytes r ∧ tail ≠ f.bytes r) := by
  obtain ⟨done, rest, tail, rfl, rfl, htail⟩ := f.prefix_cut h
  have hnext : f.next tail = none := by
    obtain rfl | ⟨r, -, hpart, hne⟩ := htail
    · exact f.next_nil
    · exact f.next_part hpart hne
  refine ⟨done.length, tail, ?_, by simp, ?_⟩
  · rw [split_bytes_append, f.split_none hnext]
    simp
  · rwa [List.getElem?_append_right (Nat.le_refl _), Nat.sub_self, ← List.head?_eq_getElem?]

end Framing
