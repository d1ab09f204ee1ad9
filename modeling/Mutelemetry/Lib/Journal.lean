import Mutelemetry.Lib.Transition

/-!
# A journal

What a buffered writer is for: messages are put, and later written to a file in
the order they were put, some at a time. A write may fail and leave a part of
its messages on the file; nothing is written behind it.
-/

/-- `torn` is what a failed write left on the file. -/
structure Journal (α : Type u) where
  written : List (List α)
  torn : List α
  failed : Bool
  waiting : List (List α)

namespace Journal

variable {α : Type u}

def empty : Journal α := ⟨[], [], false, []⟩

def content (j : Journal α) : List α := j.written.flatten ++ j.torn

inductive Event (α : Type u)
  | put (m : List α)
  /-- The first messages that wait are written. -/
  | commit (n : Nat)
  /-- The write of the first messages that wait fails. -/
  | fail (n : Nat) (torn : List α)

def step [BEq α] (j : Journal α) : Event α → Option (Journal α)
  | .put m => some { j with waiting := j.waiting ++ [m] }
  | .commit n =>
    if !j.failed && n ≤ j.waiting.length then
      some { j with written := j.written ++ j.waiting.take n, waiting := j.waiting.drop n }
    else none
  | .fail n torn =>
    if !j.failed && n ≤ j.waiting.length && torn.isPrefixOf (j.waiting.take n).flatten then
      some { j with torn := torn, failed := true, waiting := j.waiting.drop n }
    else none

def puts : Event α → List (List α)
  | .put m => [m]
  | .commit _ | .fail .. => []

/-- Where the messages put so far are; what a failed write did not write is
lost. -/
def Accounted (put : List (List α)) (j : Journal α) : Prop :=
  ∃ lost, put = j.written ++ lost ++ j.waiting ∧ j.torn <+: lost.flatten ∧
    (j.failed = false → lost = [])

theorem Accounted.prefix {j : Journal α} (h : Accounted put j) : j.content <+: put.flatten := by
  obtain ⟨lost, rfl, ⟨rest, hrest⟩, -⟩ := h
  exact ⟨rest ++ j.waiting.flatten, by simp [content, ← hrest]⟩

theorem Accounted.whole {j : Journal α} (h : Accounted put j) (htorn : j.torn = []) :
    ∃ n, j.content = (put.take n).flatten := by
  obtain ⟨lost, rfl, -⟩ := h
  exact ⟨j.written.length, by simp [content, htorn]⟩

variable [BEq α]

theorem step_commit {j : Journal α} (hopen : j.failed = false) (hw : j.waiting = ms ++ rest) :
    j.step (.commit ms.length) = some { j with written := j.written ++ ms, waiting := rest } := by
  simp [step, hopen, hw]

variable [LawfulBEq α]

theorem step_fail {j : Journal α} {part : List α} (hopen : j.failed = false)
    (hw : j.waiting = ms ++ rest) (hpart : part <+: ms.flatten) :
    j.step (.fail ms.length part) =
      some { j with torn := part, failed := true, waiting := rest } := by
  simp [step, hopen, hw, List.isPrefixOf_iff_prefix, hpart]

theorem Accounted.step {j j' : Journal α} (h : Accounted put j) (hs : j.step e = some j') :
    Accounted (put ++ puts e) j' := by
  obtain ⟨lost, rfl, htorn, hopen⟩ := h
  cases e with
  | put m =>
    cases hs
    exact ⟨lost, by simp [puts], htorn, hopen⟩
  | commit n =>
    simp only [Journal.step] at hs
    split at hs
    · rename_i hc
      simp only [Bool.and_eq_true, Bool.not_eq_true', decide_eq_true_eq] at hc
      obtain rfl := hopen hc.1
      cases hs
      exact ⟨[], by simp [puts], htorn, hopen⟩
    · cases hs
  | fail n torn =>
    simp only [Journal.step] at hs
    split at hs
    · rename_i hc
      simp only [Bool.and_eq_true, Bool.not_eq_true', decide_eq_true_eq,
        List.isPrefixOf_iff_prefix] at hc
      obtain rfl := hopen hc.1.1
      cases hs
      exact ⟨j.waiting.take n, by simp [puts], hc.2, nofun⟩
    · cases hs

/-- Then the file is a prefix of what was put, and made of whole messages if no
write has failed. -/
theorem accounted_of_run {j : Journal α} (h : Transition.run step empty es = some j) :
    Accounted (es.flatMap puts) j := by
  have hempty : Accounted (([] : List (Event α)).flatMap puts) empty :=
    ⟨[], rfl, List.prefix_rfl, fun _ => rfl⟩
  exact Transition.run_history (fun past j => Accounted (past.flatMap puts) j)
    (fun hi hs => by simpa using hi.step hs) h hempty

end Journal
