import Mutelemetry.Parse.Bounds

/-!
# How deep formats are followed

`create_timeseries` and `parse_data_intl` go into the nested formats in their
order, and stop at one that is not defined. So they end unless they come back to
a format that they are in; `parse_format` takes formats that make them do so.
-/

namespace Mutelemetry.Parse

open ByteString Stateful Relation Height Ulog

def Settled (formats : Formats) (slot : Slot) : Prop :=
  ∀ field i, slot = .item field i → field.type = .other → Resolved formats field.otherTypeId

/-- Inside the format `a` one of `b` is gone into: it is defined, and nothing
before it is stopped at. -/
def Enters (formats : Formats) (a b : Bytes) : Prop :=
  b ∈ formats ∧ ∃ format pre field i post, formats.lookup a = some format ∧
    format.slots = pre ++ .item field i :: post ∧ field.type = .other ∧ field.otherTypeId = b ∧
    ∀ slot ∈ pre, Settled formats slot

/-- So many levels are enough for both recursions, whatever they are called with. -/
def Terminates (formats : Formats) (format : Format) : Prop :=
  ∃ depth, (∀ pre, appendVector formats depth format pre ≠ .error .diverges) ∧
    ∀ buffer c c', (parseDataIntl formats buffer depth format).run c ≠ .error .diverges c'

section
variable {formats : Formats} {format : Format} {one : Slot → Int → Trail}

-- ---------------------------------------------------------------------------
-- Resolved formats
-- ---------------------------------------------------------------------------

theorem trailSlots_ok (h : (trailSlots one slots start).stop = .ok stop) :
    ∀ slot ∈ slots, ∃ mid stop', (one slot mid).stop = .ok stop' := by
  induction slots generalizing start with
  | nil => simp
  | cons slot slots ih =>
    rw [trailSlots, Trail.andThen] at h
    split at h
    · rename_i mid hmid
      rw [List.forall_mem_cons]
      exact ⟨⟨start, mid, hmid⟩, ih h⟩
    · rename_i fault hfault
      cases hfault.symm.trans h

theorem settled_of_ok {walk : Format → Int → Trail}
    (hwalk : ∀ {name child start stop}, formats.lookup name = some child →
      (walk child start).stop = .ok stop → Resolved formats name)
    (h : (trailSlot formats walk slot start).stop = .ok stop) : Settled formats slot := by
  rintro field i rfl ht
  simp only [trailSlot, if_pos ht] at h
  split at h
  · cases h
  · rename_i child hchild
    exact hwalk hchild h

/-- A trail that gets to its end has found all that the format nests. -/
theorem resolved_of_trail (hf : formats.lookup name = some format)
    (h : (trail formats depth format start).stop = .ok stop) : Resolved formats name := by
  induction depth generalizing name format start stop with
  | zero => cases h
  | succ depth ih =>
    refine .of_nested hf fun b hn => ?_
    obtain ⟨format', hf', field, i, hmem, ht, rfl⟩ := hn
    cases hf.symm.trans hf'
    obtain ⟨mid, stop', hslot⟩ := trailSlots_ok h _ hmem
    exact settled_of_ok ih hslot field i rfl ht

theorem Settled.trail_error {walk : Format → Int → Trail} (h : Settled formats slot)
    (hwalk : ∀ {name child start fault}, Resolved formats name → formats.lookup name = some child →
      (walk child start).stop = .error fault → fault = .diverges)
    (hstop : (trailSlot formats walk slot start).stop = .error fault) : fault = .diverges := by
  cases slot with
  | padding size => cases hstop
  | item field i =>
    simp only [trailSlot] at hstop
    split at hstop
    · rename_i ht
      have hr := h field i rfl ht
      obtain ⟨child, hchild⟩ := hr.lookup
      rw [hchild] at hstop
      exact hwalk hr hchild hstop
    · cases hstop

theorem Resolved.trail_error (h : Resolved formats name) (hf : formats.lookup name = some format)
    (hstop : (trail formats depth format start).stop = .error fault) : fault = .diverges := by
  induction depth generalizing name format start fault with
  | zero =>
    cases hstop
    rfl
  | succ depth ih =>
    obtain ⟨slot, hmem, mid, hslot⟩ := trailSlots_error hstop
    have hsettled : Settled formats slot := by
      rintro field i rfl ht
      exact h.step ⟨format, hf, field, i, hmem, ht, rfl⟩
    exact hsettled.trail_error ih hslot

-- ---------------------------------------------------------------------------
-- How deep a trail goes
-- ---------------------------------------------------------------------------

/-- What comes before a slot does not keep a trail from it. -/
theorem trailSlots_reach
    (hpre : ∀ s ∈ pre, ∀ mid fault, (one s mid).stop = .error fault → fault = .diverges)
    (h : (trailSlots one (pre ++ slot :: post) start).stop ≠ .error .diverges) :
    ∃ mid, (one slot mid).stop ≠ .error .diverges := by
  induction pre generalizing start with
  | nil =>
    refine ⟨start, fun hstop => h ?_⟩
    rw [List.nil_append, trailSlots, Trail.andThen, hstop]
    exact hstop
  | cons s pre ih =>
    rw [List.cons_append, trailSlots, Trail.andThen] at h
    rw [List.forall_mem_cons] at hpre
    split at h
    · exact ih hpre.2 h
    · rename_i fault hfault
      exact absurd (hpre.1 start fault hfault ▸ hfault) h

theorem below_of_trail (hf : formats.lookup name = some format)
    (h : (trail formats depth format start).stop ≠ .error .diverges) :
    Below (Enters formats) depth name := by
  induction depth generalizing name format start with
  | zero => exact h rfl
  | succ depth ih =>
    rintro _ ⟨hmem, format', pre, field, i, post, hf', hslots, ht, rfl, hpre⟩
    cases hf.symm.trans hf'
    obtain ⟨child, hchild⟩ := Option.isSome_iff_exists.mp (AList.lookup_isSome.mpr hmem)
    rw [trail, hslots] at h
    obtain ⟨mid, hmid⟩ := trailSlots_reach (fun slot hslot mid fault hstop =>
      (hpre slot hslot).trail_error Resolved.trail_error hstop) h
    simp only [trailSlot, if_pos ht, hchild] at hmid
    exact ih hchild hmid

theorem trailSlots_below {walk : Format → Int → Trail}
    (hok : ∀ {slot start stop}, (trailSlot formats walk slot start).stop = .ok stop →
      Settled formats slot)
    (hchild : ∀ pre slot post start, slots = pre ++ slot :: post → (∀ s ∈ pre, Settled formats s) →
      (trailSlot formats walk slot start).stop ≠ .error .diverges) (start : Int) :
    (trailSlots (trailSlot formats walk) slots start).stop ≠ .error .diverges := by
  induction slots generalizing start with
  | nil => exact fun h => nomatch h
  | cons slot slots ih =>
    rw [trailSlots, Trail.andThen]
    split
    · rename_i mid hmid
      refine ih (fun pre slot' post start' heq hpre => ?_) mid
      refine hchild (slot :: pre) slot' post start' (by rw [heq, List.cons_append]) ?_
      exact List.forall_mem_cons.mpr ⟨hok hmid, hpre⟩
    · exact hchild [] slot slots start rfl (by simp)

theorem trail_of_below (hf : formats.lookup name = some format)
    (h : Below (Enters formats) depth name) (start : Int) :
    (trail formats depth format start).stop ≠ .error .diverges := by
  induction depth generalizing name format start with
  | zero => exact h.elim
  | succ depth ih =>
    refine trailSlots_below (settled_of_ok resolved_of_trail)
      (fun pre slot post mid hslots hpre hstop => ?_) start
    cases slot with
    | padding size => cases hstop
    | item field i =>
      simp only [trailSlot] at hstop
      split at hstop
      · rename_i ht
        split at hstop
        · cases hstop
        · rename_i child hchild
          have hmem : field.otherTypeId ∈ formats := AList.lookup_isSome.mp (by rw [hchild]; rfl)
          have henters : Enters formats name field.otherTypeId :=
            ⟨hmem, format, pre, field, i, post, hf, hslots, ht, rfl, hpre⟩
          exact ih hchild (h _ henters) (mid + 8) hstop
      · cases hstop

-- ---------------------------------------------------------------------------
-- Where its leaves are
-- ---------------------------------------------------------------------------

structure Near (n : Nat) (t : Int → Trail) : Prop where
  leaves : ∀ start, ∀ leaf ∈ (t start).leaves,
    start ≤ leaf.offset + n ∧ leaf.offset + leaf.type.sizeOf ≤ start + n
  stop : ∀ start stop, (t start).stop = .ok stop → start ≤ stop + n ∧ stop ≤ start + n

theorem Near.andThen (h : Near n t) (h' : Near m t') :
    Near (n + m) fun start => (t start).andThen t' := by
  constructor
  · intro start leaf hleaf
    rw [Trail.andThen] at hleaf
    split at hleaf
    · rename_i mid hmid
      have hto := h.stop start mid hmid
      obtain hleaf | hleaf := List.mem_append.mp hleaf
      · have hin := h.leaves start leaf hleaf
        omega
      · have hin := h'.leaves mid leaf hleaf
        omega
    · have hin := h.leaves start leaf hleaf
      omega
  · intro start stop hstop
    rw [Trail.andThen] at hstop
    split at hstop
    · rename_i mid hmid
      have hto := h.stop start mid hmid
      have hto' := h'.stop mid stop hstop
      omega
    · rename_i fault hfault
      cases hfault.symm.trans hstop

theorem near_slots (h : ∀ slot, ∃ n, Near n (one slot)) (slots : List Slot) :
    ∃ n, Near n (trailSlots one slots) := by
  induction slots with
  | nil =>
    refine ⟨0, fun start leaf hleaf => (nomatch hleaf), fun start stop hstop => ?_⟩
    cases hstop
    simp
  | cons slot slots ih =>
    obtain ⟨n, hn⟩ := h slot
    obtain ⟨m, hm⟩ := ih
    exact ⟨n + m, hn.andThen hm⟩

theorem near_slot {walk : Format → Int → Trail} (h : ∀ child, ∃ n, Near n (walk child))
    (slot : Slot) : ∃ n, Near n (trailSlot formats walk slot) := by
  cases slot with
  | padding size =>
    refine ⟨size.natAbs, fun start leaf hleaf => (nomatch hleaf), fun start stop hstop => ?_⟩
    cases hstop
    omega
  | item field i =>
    by_cases ht : field.type = .other
    · cases hf : formats.lookup field.otherTypeId with
      | none =>
        refine ⟨0, fun start leaf hleaf => ?_, fun start stop hstop => ?_⟩
        · simp only [trailSlot, if_pos ht, hf] at hleaf
          cases hleaf
        · simp only [trailSlot, if_pos ht, hf] at hstop
          cases hstop
      | some child =>
        obtain ⟨n, hn⟩ := h child
        refine ⟨n + 8, fun start leaf hleaf => ?_, fun start stop hstop => ?_⟩
        · simp only [trailSlot, if_pos ht, hf] at hleaf
          have hin := hn.leaves (start + 8) leaf hleaf
          omega
        · simp only [trailSlot, if_pos ht, hf] at hstop
          have hto := hn.stop (start + 8) stop hstop
          omega
    · refine ⟨field.type.sizeOf, fun start leaf hleaf => ?_, fun start stop hstop => ?_⟩
      · simp only [trailSlot, if_neg ht, List.mem_singleton] at hleaf
        subst hleaf
        dsimp only
        omega
      · simp only [trailSlot, if_neg ht, Except.ok.injEq] at hstop
        omega

theorem near_trail (formats : Formats) (depth : Nat) (format : Format) :
    ∃ n, Near n (trail formats depth format) := by
  induction depth generalizing format with
  | zero => exact ⟨0, fun start leaf hleaf => (nomatch hleaf), fun start stop hstop => (nomatch hstop)⟩
  | succ depth ih => exact near_slots (near_slot ih) format.slots

-- ---------------------------------------------------------------------------
-- Both recursions
-- ---------------------------------------------------------------------------

theorem appendVector_of_below (hf : formats.lookup name = some format)
    (h : Below (Enters formats) depth name) (pre : Bytes) :
    appendVector formats depth format pre ≠ .error .diverges := by
  intro hdiverges
  exact trail_of_below hf h 0 (appendVector_stops hdiverges (by decide) 0)

theorem parseDataIntl_of_below (hf : formats.lookup name = some format)
    (h : Below (Enters formats) depth name) (buffer : Bytes) (c c' : Cursor) :
    (parseDataIntl formats buffer depth format).run c ≠ .error .diverges c' := by
  intro hdiverges
  exact trail_of_below hf h c.message (parseDataIntl_stops hdiverges rfl)

/-- Some message is long enough, and some series wide enough, to go all the way. -/
theorem parseDataIntl_diverges (h : ∀ start, (trail formats depth format start).stop = .error .diverges) :
    ∃ buffer c c', (parseDataIntl formats buffer depth format).run c = .error .diverges c' := by
  obtain ⟨n, hn⟩ := near_trail formats depth format
  let leaves := (trail formats depth format n).leaves
  let timeseries : Timeseries := ⟨[], .replicate leaves.length ([], [])⟩
  have hstore : Unstrayed (storeLeaves (.replicate (n + n) 0) leaves timeseries 0) := by
    refine (unstrayed_storeLeaves (Nat.zero_le _)).mpr ⟨fun leaf hleaf => ?_, ?_⟩
    · have hin := hn.leaves n leaf hleaf
      rw [Leaf.Within, List.length_replicate]
      omega
    · simp [timeseries]
  have htreads : Treads (.replicate (n + n) 0) (parseDataIntl formats _ depth format) _ :=
    parseDataIntl_treads depth format
  replace htreads := htreads ⟨timeseries, n, 0⟩
  split at htreads
  · rename_i fault hfault
    cases (storeLeaves_stray hfault).symm.trans (hstore fault hfault)
  · rw [h] at htreads
    obtain ⟨c', hrun⟩ := htreads
    exact ⟨_, _, c', hrun⟩

theorem below_of_acyclic (hf : formats.lookup name = some format)
    (h : Acyclic (Enters formats) name) : Below (Enters formats) formats.keys.length name := by
  have hcard : formats.keys.toFinset.card = formats.keys.length :=
    List.toFinset_card_of_nodup formats.keys_nodup
  rw [← hcard]
  refine h.below fun b hb => List.mem_toFinset.mpr ?_
  obtain rfl | ⟨c, -, hc⟩ := hb.cases_tail
  · exact AList.lookup_isSome.mp (by rw [hf]; rfl)
  · exact hc.1

/-- Both recursions end if and only if the format does not come back to one that it is in. -/
theorem terminates_iff (hf : formats.lookup name = some format) :
    Terminates formats format ↔ Acyclic (Enters formats) name := by
  constructor
  · rintro ⟨depth, -, hdata⟩
    by_contra hcycle
    have hdeep : ¬ Below (Enters formats) depth name := fun h => hcycle h.acyclic
    obtain ⟨buffer, c, c', hrun⟩ := parseDataIntl_diverges fun start =>
      not_not.mp fun hstop => hdeep (below_of_trail hf hstop)
    exact hdata buffer c c' hrun
  · intro h
    have hbelow := below_of_acyclic hf h
    exact ⟨_, appendVector_of_below hf hbelow, parseDataIntl_of_below hf hbelow⟩

theorem Enters.nests (h : Enters formats a b) : Nests formats a b := by
  obtain ⟨-, format, pre, field, i, post, hf, hslots, ht, hb, -⟩ := h
  exact ⟨format, hf, field, i, by simp [hslots], ht, hb⟩

theorem Resolved.terminates (h : Resolved formats name) (hf : formats.lookup name = some format) :
    Terminates formats format :=
  (terminates_iff hf).mpr (h.acyclic.mono fun _ _ => Enters.nests)

/-- If any number of levels is enough, the one that `parse` allows is. -/
theorem Terminates.enough (h : Terminates formats format)
    (hf : formats.lookup name = some format) :
    (∀ pre, appendVector formats formats.keys.length format pre ≠ .error .diverges) ∧
      ∀ buffer c c', (parseDataIntl formats buffer formats.keys.length format).run c ≠
        .error .diverges c' := by
  have hbelow := below_of_acyclic hf ((terminates_iff hf).mp h)
  exact ⟨appendVector_of_below hf hbelow, parseDataIntl_of_below hf hbelow⟩

end

-- ---------------------------------------------------------------------------
-- Runs
-- ---------------------------------------------------------------------------

/-- A subscription has the format of its own name, or none. -/
def Labelled (sub : Subscription) : Prop := ∀ name, sub.format = some name → name = sub.messageName

theorem labelled_of_read (h : readSubscription formats buffer message size = .ok sub) :
    Labelled sub := by
  intro name hname
  rw [readSubscription_format h, Option.ite_none_right_eq_some] at hname
  exact (Option.some.inj hname.2).symm

theorem labelled_of_run (h : Transition.run accept .new ms = some p)
    (hsub : p.subscriptions.lookup msgId = some sub) : Labelled sub := by
  have hp : Keeps (fun _ => Labelled) p :=
    Transition.run_invariant (Keeps fun _ => Labelled)
      (fun hi hs => hi.accept (fun _ _ _ _ hr _ => labelled_of_read hr) hs) h keeps_new
  exact (hp.subs msgId sub hsub).2

theorem formatOf_lookup {p : MutelemetryParser} (h : p.formatOf sub = .ok format) :
    ∃ name, sub.format = some name ∧ p.formats.lookup name = some format := by
  unfold MutelemetryParser.formatOf at h
  split at h
  · rename_i hf
    cases h
    exact Option.bind_eq_some_iff.mp hf
  · cases h

def nestedType : List (Bytes × Nat) :=
  [(fileHeader 0, 0), (frame .B (List.replicate 40 0), 0),
    (frame .F (ascii "T:int8_t a;Inner[2] x;"), 0), (frame .F (ascii "Inner:int16_t v;"), 0),
    (addData 0 0 (ascii "T") (leBytes 8 7 ++ ([1] ++ (leBytes 8 8 ++ [2, 0]) ++
      (leBytes 8 9 ++ [3, 0]))), 0)]

/-- In every state a run reaches, the format of a subscription is gone through
in finitely many steps if and only if it does not come back to one that it is in. -/
theorem subscribed_terminates_iff (h : Transition.run accept .new ms = some p)
    (hsub : p.subscriptions.lookup msgId = some sub) (hf : p.formatOf sub = .ok format) :
    Terminates p.formats format ↔ Acyclic (Enters p.formats) sub.messageName := by
  obtain ⟨name, hname, hlookup⟩ := formatOf_lookup hf
  cases labelled_of_run h hsub name hname
  exact terminates_iff hlookup

theorem subscribed_terminates_iff_nestedType :
    ∃ p sub format, Transition.run accept .new nestedType = some p ∧
      p.subscriptions.lookup 0 = some sub ∧ p.formatOf sub = .ok format ∧
      (Terminates p.formats format ↔ Acyclic (Enters p.formats) sub.messageName) := by
  have hrun : (Transition.run accept .new nestedType).map (fun p =>
      (p.subscriptions.lookup 0).map fun sub => (p.formatOf sub).isOk) = some (some true) := by
    decide +kernel
  obtain ⟨p, hp, hsub⟩ := Option.map_eq_some_iff.mp hrun
  obtain ⟨sub, hsub, hok⟩ := Option.map_eq_some_iff.mp hsub
  cases hf : p.formatOf sub with
  | error fault =>
    rw [hf] at hok
    cases hok
  | ok format => exact ⟨p, sub, format, hp, hsub, hf, subscribed_terminates_iff hp hsub hf⟩

def loopType : List (Bytes × Nat) :=
  [(fileHeader 0, 0), (frame .B (List.replicate 40 0), 0), (frame .F (ascii "T:T x;"), 0),
    (frame .A (addBody 0 0 (ascii "T")) ++ frame .S [], 0)]

theorem loopType_endless : ¬ ∀ ms p msgId sub format, Transition.run accept .new ms = some p →
    p.subscriptions.lookup msgId = some sub → p.formatOf sub = .ok format →
    Terminates p.formats format := by
  intro h
  have hrun : (Transition.run accept .new loopType).map (fun p =>
      ((p.subscriptions.lookup 0).map (·.format), p.formats.lookup (ascii "T"))) =
      some (some (some (ascii "T")), some ⟨ascii "T", [⟨.other, ascii "x", ascii "T", 1⟩]⟩) := by
    decide +kernel
  obtain ⟨p, hp, heq⟩ := Option.map_eq_some_iff.mp hrun
  simp only [Prod.mk.injEq] at heq
  obtain ⟨hsub, hlookup⟩ := heq
  obtain ⟨sub, hsub, hformat⟩ := Option.map_eq_some_iff.mp hsub
  have hf : p.formatOf sub = .ok ⟨ascii "T", [⟨.other, ascii "x", ascii "T", 1⟩]⟩ := by
    simp [MutelemetryParser.formatOf, hformat, hlookup]
  have hends := h loopType p 0 sub _ hp hsub hf
  have henters : Enters p.formats (ascii "T") (ascii "T") :=
    ⟨AList.lookup_isSome.mp (by rw [hlookup]; rfl), _, [], ⟨.other, ascii "x", ascii "T", 1⟩, 0, [],
      hlookup, rfl, rfl, rfl, by simp⟩
  exact (terminates_iff hlookup).mp hends (ascii "T") .refl (.single henters)

end Mutelemetry.Parse
