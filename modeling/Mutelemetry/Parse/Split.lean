import Mutelemetry.Parse.Loops

/-!
# The parts of a text

What the loop of `split_string` leaves: views into the text it was given, one
behind the other, with no delimiter in them. With delimiters between them they
are the text again, but for one at its end.
-/

namespace Mutelemetry.Parse

open ByteString Loop

def View.Within (part s : View) : Prop :=
  ∃ before after, s.text = before ++ part.text ++ after ∧ part.behind = after ++ s.behind

def View.Before (a b : View) : Prop := b.text.length + b.behind.length < a.behind.length

-- ---------------------------------------------------------------------------
-- The texts
-- ---------------------------------------------------------------------------

section
variable {d : UInt8} {s : Bytes}

theorem notMem_splitString (h : part ∈ splitString d s) : d ∉ part := by
  induction s generalizing part with
  | nil => cases h
  | cons c cs ih =>
    unfold splitString at h
    split at h
    · obtain rfl | h := List.mem_cons.mp h
      · exact List.not_mem_nil
      · exact ih h
    · rename_i hc
      split at h
      · obtain rfl := List.mem_singleton.mp h
        simpa using Ne.symm hc
      · rename_i first parts hsplit
        rw [hsplit] at ih
        obtain rfl | h := List.mem_cons.mp h
        · rw [List.mem_cons, not_or]
          exact ⟨Ne.symm hc, ih List.mem_cons_self⟩
        · exact ih (List.mem_cons_of_mem _ h)

theorem length_le_of_mem_splitString (h : part ∈ splitString d s) : part.length ≤ s.length := by
  induction s generalizing part with
  | nil => cases h
  | cons c cs ih =>
    rw [List.length_cons]
    unfold splitString at h
    split at h
    · obtain rfl | h := List.mem_cons.mp h
      · exact Nat.zero_le _
      · exact (ih h).trans (Nat.le_succ _)
    · split at h
      · obtain rfl := List.mem_singleton.mp h
        exact Nat.succ_le_succ (Nat.zero_le _)
      · rename_i first parts hsplit
        rw [hsplit] at ih
        obtain rfl | h := List.mem_cons.mp h
        · exact Nat.succ_le_succ (ih List.mem_cons_self)
        · exact (ih (List.mem_cons_of_mem _ h)).trans (Nat.le_succ _)

theorem splitString_ne_nil (h : s ≠ []) : splitString d s ≠ [] := by
  rw [splitString_eq d s h]
  exact List.cons_ne_nil _ _

/-- A delimiter at the end of the text is the only byte that is lost. -/
theorem intercalate_splitString (d : UInt8) (s : Bytes) :
    [d].intercalate (splitString d s) = if s.getLast? = some d then s.dropLast else s := by
  induction s with
  | nil => rfl
  | cons c cs ih =>
    by_cases hcs : cs = []
    · subst hcs
      by_cases hc : c = d
      · simp [splitString, hc]
      · simp [splitString, hc]
    · -- both sides go on with what is behind the first byte
      have hrest : (if (c :: cs).getLast? = some d then (c :: cs).dropLast else c :: cs) =
          c :: if cs.getLast? = some d then cs.dropLast else cs := by
        rw [List.getLast?_cons_of_ne_nil hcs, List.dropLast_cons_of_ne_nil hcs]
        split
        · rfl
        · rfl
      rw [hrest, ← ih]
      obtain ⟨part, parts, hsplit⟩ := List.exists_cons_of_ne_nil (splitString_ne_nil (d := d) hcs)
      by_cases hc : c = d
      · rw [splitString, if_pos hc, hsplit, List.intercalate_cons_cons, hc]
        rfl
      · rw [splitString, if_neg hc, hsplit]
        cases parts with
        | nil => simp
        | cons => simp [List.intercalate_cons_cons]

end

-- ---------------------------------------------------------------------------
-- The views
-- ---------------------------------------------------------------------------

section
variable {d : UInt8} {v : View}

/-- The views that are cut when the loop is at a position. -/
structure Cut (v : View) (s : Nat × List View) : Prop where
  within : ∀ part ∈ s.2, part.Within v
  before : s.2.Pairwise View.Before
  rest : s.1 < v.text.length → ∀ part ∈ s.2,
    (v.text.drop s.1).length + v.behind.length < part.behind.length

theorem Cut.turn (h : Cut v s) (hpos : s.1 < v.text.length) : Cut v (splitTurn d v s) := by
  obtain ⟨pos, parts⟩ := s
  obtain ⟨hwithin, hbefore, hrest⟩ := h
  have hsplit := List.takeWhile_append_dropWhile (p := (· ≠ d)) (l := v.text.drop pos)
  have hlen := congrArg List.length hsplit
  rw [List.length_append, List.length_drop] at hlen
  rw [splitTurn_eq]
  generalize (v.text.drop pos).takeWhile (· ≠ d) = text at hsplit hlen
  generalize (v.text.drop pos).dropWhile (· ≠ d) = after at hsplit hlen
  have hnew : (⟨text, after ++ v.behind⟩ : View).Within v := by
    refine ⟨v.text.take pos, after, ?_, rfl⟩
    rw [List.append_assoc, hsplit, List.take_append_drop]
  have hafter : ∀ part ∈ parts, part.Before ⟨text, after ++ v.behind⟩ := by
    intro part hmem
    have hlt := hrest hpos part hmem
    rw [← hsplit, List.length_append] at hlt
    simp only [View.Before, List.length_append]
    omega
  refine ⟨?_, ?_, ?_⟩
  · rw [List.forall_mem_append, List.forall_mem_singleton]
    exact ⟨hwithin, hnew⟩
  · rw [List.pairwise_append]
    refine ⟨hbefore, List.pairwise_singleton _ _, fun part hmem part' hmem' => ?_⟩
    obtain rfl := List.mem_singleton.mp hmem'
    exact hafter part hmem
  · intro hlt
    rw [List.forall_mem_append, List.forall_mem_singleton, List.length_append, List.length_drop]
    refine ⟨fun part hmem => ?_, by omega⟩
    have hlt' := hrest hpos part hmem
    rw [List.length_drop] at hlt'
    omega

/-- `split_string` ends on every text, and these are its parts. -/
theorem splitViews_exact (d : UInt8) (s : View) : ∃ parts : List View,
    Computes .diverges (splitViews d s) (.ok parts) ∧
    parts.map View.text = splitString d s.text ∧
    (∀ part ∈ parts, part.Within s ∧ d ∉ part.text) ∧ parts.Pairwise View.Before ∧
    [d].intercalate (parts.map View.text) =
      (if s.text.getLast? = some d then s.text.dropLast else s.text) ∧
    (s.text = [] → parts = []) := by
  have hdown (st : Nat × List View) (h : Splitting d s st ∧ Cut s st)
      (hc : decide (st.1 < s.text.length) = true) :
      (Splitting d s (splitTurn d s st) ∧ Cut s (splitTurn d s st)) ∧
        s.text.length - (splitTurn d s st).1 < s.text.length - st.1 := by
    have hpos : st.1 < s.text.length := by simpa using hc
    refine ⟨⟨h.1.turn hpos, h.2.turn hpos⟩, ?_⟩
    rw [splitTurn_eq]
    omega
  have hinit : Splitting d s (0, []) ∧ Cut s (0, []) :=
    ⟨⟨rfl, by simp, by simp⟩, by simp, .nil, by simp⟩
  obtain ⟨⟨pos, parts⟩, ⟨⟨htexts, -, -⟩, hwithin, hbefore, -⟩, hc, hends⟩ :=
    whileLoop_ends Fault.diverges (fun st => Splitting d s st ∧ Cut s st)
      (fun st => s.text.length - st.1) hdown hinit
  have hend : s.text.drop pos = [] := List.drop_eq_nil_of_le (by simpa using hc)
  rw [hend, splitString, List.append_nil] at htexts
  refine ⟨parts, hends.bind_ok (.pure parts), htexts, fun part hmem => ⟨hwithin part hmem, ?_⟩,
    hbefore, ?_, ?_⟩
  · exact notMem_splitString (htexts ▸ List.mem_map_of_mem hmem)
  · rw [htexts, intercalate_splitString]
  · intro hs
    rw [hs] at htexts
    exact List.map_eq_nil_iff.mp htexts

end

end Mutelemetry.Parse
