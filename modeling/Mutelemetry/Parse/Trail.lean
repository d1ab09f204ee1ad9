import Mutelemetry.Parse.Decode

/-!
# Trails

The leaves `parse_data_intl` comes by, whether it gets to the end of its format
or is stopped at a nested format that is not defined. Paths play no part in it.
-/

namespace Mutelemetry.Parse

open ByteString Stateful

structure Trail where
  leaves : List Leaf
  stop : Except Fault Int

def Trail.andThen (t : Trail) (next : Int → Trail) : Trail :=
  match t.stop with
  | .ok mid => ⟨t.leaves ++ (next mid).leaves, (next mid).stop⟩
  | .error _ => t

def trailSlot (formats : Formats) (child : Format → Int → Trail) : Slot → Int → Trail
  | .padding size, start => ⟨[], .ok (start + size)⟩
  | .item field _, start =>
    if field.type = .other then
      match formats.lookup field.otherTypeId with
      | none => ⟨[], .error .outOfRange⟩
      | some format => child format (start + 8)
    else ⟨[⟨[], start, field.type⟩], .ok (start + field.type.sizeOf)⟩

def trailSlots (one : Slot → Int → Trail) : List Slot → Int → Trail
  | [], start => ⟨[], .ok start⟩
  | slot :: slots, start => (one slot start).andThen (trailSlots one slots)

def trail (formats : Formats) : (depth : Nat) → Format → Int → Trail
  | 0, _, _ => ⟨[], .error .diverges⟩
  | depth + 1, format, start => trailSlots (trailSlot formats (trail formats depth)) format.slots start

theorem trailSlots_error (h : (trailSlots one slots start).stop = .error fault) :
    ∃ slot ∈ slots, ∃ mid, (one slot mid).stop = .error fault := by
  induction slots generalizing start with
  | nil => cases h
  | cons slot slots ih =>
    rw [trailSlots, Trail.andThen] at h
    split at h
    · obtain ⟨slot', hmem, h⟩ := ih h
      exact ⟨slot', List.mem_cons_of_mem _ hmem, h⟩
    · exact ⟨slot, List.mem_cons_self, start, h⟩

theorem trail_error (h : (trail formats depth format start).stop = .error fault) :
    fault = .outOfRange ∨ fault = .diverges := by
  induction depth generalizing format start with
  | zero =>
    cases h
    exact .inr rfl
  | succ depth ih =>
    obtain ⟨slot, -, mid, h⟩ := trailSlots_error h
    cases slot with
    | padding size => cases h
    | item field i =>
      simp only [trailSlot] at h
      split at h
      · split at h
        · cases h
          exact .inl rfl
        · exact ih h
      · cases h

-- ---------------------------------------------------------------------------
-- The walk
-- ---------------------------------------------------------------------------

/-- `x` reads and stores the leaves of the trail from where it starts, and ends as it does. -/
def Treads (buffer : Bytes) (x : Decode Unit) (t : Int → Trail) : Prop :=
  ∀ c : Cursor, match storeLeaves buffer (t c.message).leaves c.timeseries c.index with
    | .error fault => ∃ c', x.run c = .error fault c'
    | .ok (timeseries, index) => match (t c.message).stop with
      | .error fault => ∃ c', x.run c = .error fault c'
      | .ok stop => x.run c = .ok () ⟨timeseries, stop, index⟩

theorem Treads.seq (hx : Treads buffer x t) (hy : Treads buffer y t') :
    Treads buffer (x >>= fun _ => y) fun start => (t start).andThen t' := by
  intro c
  have hx := hx c
  cases hstop : (t c.message).stop with
  | error fault =>
    have hsame : (t c.message).andThen t' = t c.message := by simp [Trail.andThen, hstop]
    simp only [hsame]
    cases hs : storeLeaves buffer (t c.message).leaves c.timeseries c.index with
    | error fault' =>
      simp only [hs] at hx
      obtain ⟨c', hrun⟩ := hx
      exact ⟨c', run_seq_error hrun _⟩
    | ok r =>
      simp only [hs, hstop] at hx
      obtain ⟨c', hrun⟩ := hx
      simp only [hstop]
      exact ⟨c', run_seq_error hrun _⟩
  | ok mid =>
    have happend : (t c.message).andThen t' =
        ⟨(t c.message).leaves ++ (t' mid).leaves, (t' mid).stop⟩ := by simp [Trail.andThen, hstop]
    simp only [happend, storeLeaves_append]
    cases hs : storeLeaves buffer (t c.message).leaves c.timeseries c.index with
    | error fault =>
      simp only [hs] at hx
      obtain ⟨c', hrun⟩ := hx
      exact ⟨c', run_seq_error hrun _⟩
    | ok r =>
      obtain ⟨timeseries, index⟩ := r
      simp only [hs, hstop] at hx
      simp only [ok_bind, run_seq_ok hx]
      exact hy ⟨timeseries, mid, index⟩

theorem Treads.loop {step : Slot → Decode Unit} {one : Slot → Int → Trail}
    (h : ∀ slot, Treads buffer (step slot) (one slot)) (slots : List Slot) :
    Treads buffer (slots.forM step) (trailSlots one slots) := by
  induction slots with
  | nil => exact fun c => rfl
  | cons slot slots ih => exact (h slot).seq ih

theorem Treads.behind (h : Treads buffer x t) (n : Int) :
    Treads buffer (skip n >>= fun _ => x) fun start => t (start + n) := by
  intro c
  rw [run_seq_ok (show (skip n).run c = .ok () { c with message := c.message + n } from rfl)]
  exact h { c with message := c.message + n }

theorem treads_value (type : FormatType) :
    Treads buffer (readValue buffer type >>= storeValue) fun start =>
      ⟨[⟨[], start, type⟩], .ok (start + type.sizeOf)⟩ :=
  follows_value type []

theorem treads_slot {read : Format → Decode Unit} {walk : Format → Int → Trail}
    (h : ∀ child, Treads buffer (read child) (walk child)) (slot : Slot) :
    Treads buffer (slotRead formats buffer read slot) (trailSlot formats walk slot) := by
  cases slot with
  | padding size => exact fun _ => rfl
  | item field i =>
    simp only [slotRead]
    split
    · rename_i ht
      cases hf : formats.lookup field.otherTypeId with
      | none =>
        intro c
        simp only [trailSlot, if_pos ht, hf]
        exact ⟨c, rfl⟩
      | some child =>
        intro c
        simp only [trailSlot, if_pos ht, hf]
        exact (h child).behind 8 c
    · rename_i ht
      intro c
      simp only [trailSlot, if_neg ht]
      exact treads_value field.type c

/-- `parse_data_intl` reads the leaves of its trail. -/
theorem parseDataIntl_treads (depth : Nat) (format : Format) :
    Treads buffer (parseDataIntl formats buffer depth format) (trail formats depth format) := by
  induction depth generalizing format with
  | zero => exact fun c => ⟨c, rfl⟩
  | succ depth ih =>
    rw [parseDataIntl_succ]
    exact Treads.loop (treads_slot ih) _

-- ---------------------------------------------------------------------------
-- Where it stops
-- ---------------------------------------------------------------------------

/-- `x` stops where the trail does, with the leaves before stored. -/
def Halts (buffer : Bytes) (x : Decode Unit) (t : Int → Trail) : Prop :=
  ∀ c fault timeseries index, (t c.message).stop = .error fault →
    storeLeaves buffer (t c.message).leaves c.timeseries c.index = .ok (timeseries, index) →
    ∃ c', x.run c = .error fault c' ∧ c'.timeseries = timeseries

theorem Halts.seq (hx : Halts buffer x t) (hread : Treads buffer x t) (hy : Halts buffer y t') :
    Halts buffer (x >>= fun _ => y) fun start => (t start).andThen t' := by
  intro c fault timeseries index hstop hstore
  cases ht : (t c.message).stop with
  | error fault' =>
    have hsame : (t c.message).andThen t' = t c.message := by simp [Trail.andThen, ht]
    simp only [hsame] at hstop hstore
    obtain ⟨c', hrun, hc'⟩ := hx c fault timeseries index hstop hstore
    exact ⟨c', run_seq_error hrun _, hc'⟩
  | ok mid =>
    have happend : (t c.message).andThen t' =
        ⟨(t c.message).leaves ++ (t' mid).leaves, (t' mid).stop⟩ := by simp [Trail.andThen, ht]
    simp only [happend, storeLeaves_append] at hstop hstore
    obtain ⟨⟨timeseries', index'⟩, hs, hrest⟩ := bind_eq_ok.mp hstore
    have hrun := hread c
    simp only [hs, ht] at hrun
    rw [run_seq_ok hrun]
    exact hy ⟨timeseries', mid, index'⟩ fault timeseries index hstop hrest

theorem Halts.loop {step : Slot → Decode Unit} {one : Slot → Int → Trail}
    (h : ∀ slot, Halts buffer (step slot) (one slot)) (hread : ∀ slot, Treads buffer (step slot) (one slot))
    (slots : List Slot) : Halts buffer (slots.forM step) (trailSlots one slots) := by
  induction slots with
  | nil => exact fun _ _ _ _ hstop => nomatch hstop
  | cons slot slots ih => exact (h slot).seq (hread slot) ih

theorem halts_slot {read : Format → Decode Unit} {walk : Format → Int → Trail}
    (h : ∀ child, Halts buffer (read child) (walk child)) (slot : Slot) :
    Halts buffer (slotRead formats buffer read slot) (trailSlot formats walk slot) := by
  cases slot with
  | padding size => exact fun _ _ _ _ hstop => nomatch hstop
  | item field i =>
    intro c fault timeseries index hstop hstore
    simp only [slotRead]
    split
    · rename_i ht
      cases hf : formats.lookup field.otherTypeId with
      | none =>
        simp only [trailSlot, if_pos ht, hf] at hstop hstore
        cases hstop
        cases hstore
        exact ⟨c, rfl, rfl⟩
      | some child =>
        simp only [trailSlot, if_pos ht, hf] at hstop hstore
        exact h child { c with message := c.message + 8 } fault timeseries index hstop hstore
    · rename_i ht
      simp only [trailSlot, if_neg ht] at hstop
      cases hstop

/-- `parse_data_intl` leaves the values it has come by, when it stops. -/
theorem parseDataIntl_halts (depth : Nat) (format : Format) :
    Halts buffer (parseDataIntl formats buffer depth format) (trail formats depth format) := by
  induction depth generalizing format with
  | zero =>
    intro c fault timeseries index hstop hstore
    cases hstop
    cases hstore
    exact ⟨c, rfl, rfl⟩
  | succ depth ih =>
    rw [parseDataIntl_succ]
    exact Halts.loop (halts_slot ih) (treads_slot (parseDataIntl_treads depth)) _

-- ---------------------------------------------------------------------------
-- Names
-- ---------------------------------------------------------------------------

def NamesTo (names : Except Fault (List Bytes)) (stop : Except Fault Int) : Prop :=
  names = .error .overflow ∨ match stop with
    | .ok _ => ∃ paths, names = .ok paths
    | .error fault => names = .error fault

theorem namesTo_slots {names : Slot → Except Fault (List Bytes)} {one : Slot → Int → Trail}
    (h : ∀ slot start, NamesTo (names slot) (one slot start).stop) (slots : List Slot) (start : Int) :
    NamesTo (slots.flatMapM names) (trailSlots one slots start).stop := by
  induction slots generalizing start with
  | nil => exact .inr ⟨[], rfl⟩
  | cons slot slots ih =>
    rw [List.flatMapM_cons, trailSlots, Trail.andThen]
    obtain hslot | hslot := h slot start
    · exact .inl (by rw [hslot]; rfl)
    · cases hstop : (one slot start).stop with
      | error fault =>
        simp only [hstop] at hslot ⊢
        exact .inr (by rw [hslot]; rfl)
      | ok mid =>
        simp only [hstop] at hslot ⊢
        obtain ⟨paths, hpaths⟩ := hslot
        rw [hpaths, ok_bind]
        obtain hrest | hrest := ih mid
        · exact .inl (by rw [hrest]; rfl)
        · refine .inr ?_
          cases hstop' : (trailSlots one slots mid).stop with
          | error fault =>
            simp only [hstop'] at hrest ⊢
            rw [hrest]
            rfl
          | ok stop =>
            simp only [hstop'] at hrest ⊢
            obtain ⟨paths', hpaths'⟩ := hrest
            exact ⟨_, by rw [hpaths']; rfl⟩

theorem appendVector_namesTo (depth : Nat) (format : Format) (pre : Bytes) (start : Int) :
    NamesTo (appendVector formats depth format pre) (trail formats depth format start).stop := by
  induction depth generalizing format pre start with
  | zero => exact .inr rfl
  | succ depth ih =>
    rw [appendVector_succ]
    refine namesTo_slots (fun slot start => ?_) _ start
    cases slot with
    | padding size => exact .inr ⟨[], rfl⟩
    | item field i =>
      obtain hsuffix | ⟨suffix, hsuffix, -⟩ := arraySuffix_eq field i pre
      · exact .inl (by simp only [slotNames, hsuffix, error_bind])
      · simp only [slotNames, trailSlot, hsuffix, ok_bind]
        by_cases ht : field.type = .other
        · simp only [if_pos ht]
          cases formats.lookup field.otherTypeId with
          | none => exact .inr rfl
          | some child => exact ih child _ _
        · simp only [if_neg ht]
          exact .inr ⟨_, rfl⟩

/-- But for a suffix that does not fit, it is stopped where the trail is. -/
theorem appendVector_stops (h : appendVector formats depth format pre = .error fault)
    (hfits : fault ≠ .overflow) (start : Int) :
    (trail formats depth format start).stop = .error fault := by
  obtain hover | hnames := appendVector_namesTo depth format pre start
  · cases h.symm.trans hover
    exact absurd rfl hfits
  · cases hstop : (trail formats depth format start).stop with
    | ok stop =>
      simp only [hstop] at hnames
      obtain ⟨paths, hpaths⟩ := hnames
      cases h.symm.trans hpaths
    | error fault' =>
      simp only [hstop] at hnames
      cases h.symm.trans hnames
      rfl

end Mutelemetry.Parse
