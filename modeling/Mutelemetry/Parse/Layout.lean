import Mathlib.Control.Basic
import Mutelemetry.Lib.Height
import Mutelemetry.Lib.Stateful
import Mutelemetry.Parse.Series

/-!
# Layouts

What a format says of a payload, apart from any bytes: the leaves, each with
its path, its place and its primitive type. Both recursions of the parser
follow the layout: one names its leaves, the other reads and stores them.
-/

namespace Mutelemetry.Parse

open ByteString Stateful Relation Height

-- ---------------------------------------------------------------------------
-- Slots
-- ---------------------------------------------------------------------------

/-- One turn of the loop over a field's array, or the bytes skipped for it. -/
inductive Slot
  | padding (size : Int)
  | item (field : Field) (i : Nat)

def Field.slots (field : Field) : List Slot :=
  if field.isPadding then [.padding field.arraySize]
  else (List.range field.arraySize.toNat).map (.item field)

def Format.slots (format : Format) : List Slot := format.fields.flatMap Field.slots

def Field.path (field : Field) (i : Nat) : Bytes :=
  ascii "/" ++ field.fieldName ++ if 1 < field.arraySize then ascii "." ++ decimal02 i else []

theorem Field.mem_slots {field f : Field} (h : Slot.item f i ∈ field.slots) :
    f = field ∧ field.isPadding = false ∧ i < field.arraySize.toNat := by
  unfold Field.slots at h
  split at h
  · simp at h
  · rename_i hp
    obtain ⟨j, hj, heq⟩ := List.mem_map.mp h
    cases heq
    exact ⟨rfl, by simpa using hp, List.mem_range.mp hj⟩

theorem Format.mem_slots {format : Format} (h : Slot.item field i ∈ format.slots) :
    field ∈ format.fields ∧ field.isPadding = false ∧ i < field.arraySize.toNat := by
  obtain ⟨field', hmem, h⟩ := List.mem_flatMap.mp h
  obtain ⟨rfl, hp, hi⟩ := Field.mem_slots h
  exact ⟨hmem, hp, hi⟩

theorem Format.item_mem_slots {format : Format} (hmem : field ∈ format.fields)
    (hp : field.isPadding = false) (hi : i < field.arraySize.toNat) :
    Slot.item field i ∈ format.slots := by
  refine List.mem_flatMap.mpr ⟨field, hmem, ?_⟩
  rw [Field.slots, if_neg (by simp [hp])]
  exact List.mem_map_of_mem (List.mem_range.mpr hi)

/-- The format `a` has items of the format `b`. -/
def Nests (formats : Formats) (a b : Bytes) : Prop :=
  ∃ format, formats.lookup a = some format ∧
    ∃ field i, .item field i ∈ format.slots ∧ field.type = .other ∧ field.otherTypeId = b

/-- A format that is defined with all that it nests, and nests nothing in itself. -/
structure Resolved (formats : Formats) (name : Bytes) : Prop where
  defined : ∀ b, ReflTransGen (Nests formats) name b → b ∈ formats
  acyclic : Acyclic (Nests formats) name

theorem Resolved.below (h : Resolved formats name) :
    Below (Nests formats) formats.keys.length name := by
  have hcard : formats.keys.toFinset.card = formats.keys.length :=
    List.toFinset_card_of_nodup formats.keys_nodup
  rw [← hcard]
  exact h.acyclic.below fun b hb => List.mem_toFinset.mpr (h.defined b hb)

theorem Resolved.step (h : Resolved formats name) (hn : Nests formats name b) :
    Resolved formats b :=
  ⟨fun c hc => h.defined c (hc.head hn), h.acyclic.step hn⟩

theorem Resolved.of_nested (hf : formats.lookup name = some format)
    (h : ∀ b, Nests formats name b → Resolved formats b) : Resolved formats name := by
  refine ⟨fun b hb => ?_, fun b hb hloop => ?_⟩
  · obtain rfl | ⟨c, hc, hb⟩ := hb.cases_head
    · exact AList.lookup_isSome.mp (by rw [hf]; rfl)
    · exact (h c hc).defined b hb
  · obtain rfl | ⟨c, hc, hb⟩ := hb.cases_head
    · -- a loop at the format itself is one at a format it nests
      obtain ⟨c, hc, hback⟩ := TransGen.head'_iff.mp hloop
      exact (h c hc).acyclic _ hback hloop
    · exact (h c hc).acyclic b hb hloop

theorem Resolved.flat (hf : formats.lookup name = some format)
    (h : ∀ field ∈ format.fields, field.type ≠ .other) : Resolved formats name := by
  refine .of_nested hf ?_
  rintro b ⟨format', hf', field, i, hmem, ht, -⟩
  cases hf.symm.trans hf'
  exact absurd ht (h field (Format.mem_slots hmem).1)

theorem Resolved.lookup (h : Resolved formats name) : ∃ format, formats.lookup name = some format :=
  Option.isSome_iff_exists.mp (AList.lookup_isSome.mpr (h.defined name .refl))

-- ---------------------------------------------------------------------------
-- Layouts
-- ---------------------------------------------------------------------------

structure Leaf where
  path : Bytes
  offset : Int
  type : FormatType

abbrev Placement := Int → Except Fault (List Leaf × Int)

def Placement.andThen (place place' : Placement) : Placement := fun start => do
  let (leaves, mid) ← place start
  let (leaves', stop) ← place' mid
  pure (leaves ++ leaves', stop)

theorem Placement.andThen_eq_ok {place place' : Placement} :
    place.andThen place' start = .ok (leaves, stop) ↔ ∃ ls mid ls', place start = .ok (ls, mid) ∧
      place' mid = .ok (ls', stop) ∧ leaves = ls ++ ls' := by
  simp only [andThen, bind_eq_ok, Prod.exists, pure_eq_ok]
  constructor
  · rintro ⟨ls, mid, h, ls', stop', h', heq⟩
    cases heq
    exact ⟨ls, mid, ls', h, h', rfl⟩
  · rintro ⟨ls, mid, ls', h, h', rfl⟩
    exact ⟨ls, mid, h, ls', stop, h', rfl⟩

def inOrder (place : Slot → Placement) : List Slot → Placement
  | [] => fun start => pure ([], start)
  | slot :: slots => (place slot).andThen (inOrder place slots)

/-- A nested format comes behind a timestamp of its own. -/
def placeSlot (formats : Formats) (child : Format → Bytes → Placement) (pre : Bytes) :
    Slot → Placement
  | .padding size, start => pure ([], start + size)
  | .item field i, start =>
    if field.type = .other then
      match formats.lookup field.otherTypeId with
      | none => .error .outOfRange
      | some format => child format (pre ++ field.path i) (start + 8)
    else pure ([⟨pre ++ field.path i, start, field.type⟩], start + field.type.sizeOf)

def layout (formats : Formats) : (depth : Nat) → Format → Bytes → Placement
  | 0, _, _, _ => .error .diverges
  | depth + 1, format, pre, start =>
    inOrder (placeSlot formats (layout formats depth) pre) format.slots start

theorem inOrder_total {place : Slot → Placement}
    (h : ∀ slot ∈ slots, ∀ start, ∃ leaves stop, place slot start = .ok (leaves, stop))
    (start : Int) : ∃ leaves stop, inOrder place slots start = .ok (leaves, stop) := by
  induction slots generalizing start with
  | nil => exact ⟨[], start, rfl⟩
  | cons slot slots ih =>
    obtain ⟨leaves, mid, hl⟩ := h slot (by simp) start
    obtain ⟨leaves', stop, hl'⟩ := ih (fun s hs => h s (List.mem_cons_of_mem _ hs)) mid
    exact ⟨leaves ++ leaves', stop, Placement.andThen_eq_ok.mpr ⟨_, _, _, hl, hl', rfl⟩⟩

theorem layout_total (hr : Resolved formats name) (hf : formats.lookup name = some format)
    (hd : Below (Nests formats) depth name) (pre : Bytes) (start : Int) :
    ∃ leaves stop, layout formats depth format pre start = .ok (leaves, stop) := by
  induction depth generalizing name format pre start with
  | zero => exact hd.elim
  | succ depth ih =>
    refine inOrder_total (fun slot hslot start => ?_) start
    cases slot with
    | padding size => exact ⟨[], start + size, rfl⟩
    | item field i =>
      by_cases ht : field.type = .other
      · have hn : Nests formats name field.otherTypeId := ⟨format, hf, field, i, hslot, ht, rfl⟩
        obtain ⟨child, hc⟩ := (hr.step hn).lookup
        simpa [placeSlot, ht, hc] using ih (hr.step hn) hc (hd _ hn) _ _
      · exact ⟨_, _, by simp only [placeSlot, if_neg ht]; rfl⟩

/-- A resolved format has a layout as deep as the parser follows it. -/
theorem Resolved.layout (h : Resolved formats name) (hf : formats.lookup name = some format)
    (pre : Bytes) (start : Int) : ∃ leaves stop,
      layout formats formats.keys.length format pre start = .ok (leaves, stop) :=
  layout_total h hf h.below pre start

-- ---------------------------------------------------------------------------
-- Columns
-- ---------------------------------------------------------------------------

theorem flatMapM_map (f : β → Except Fault (List γ)) (g : α → β) (l : List α) :
    (l.map g).flatMapM f = l.flatMapM fun a => f (g a) := by
  induction l with
  | nil => rfl
  | cons a l ih => rw [List.map_cons, List.flatMapM_cons, List.flatMapM_cons, ih]

theorem flatMapM_append (f : α → Except Fault (List β)) (l l' : List α) :
    (l ++ l').flatMapM f =
      l.flatMapM f >>= fun bs => l'.flatMapM f >>= fun bs' => pure (bs ++ bs') := by
  induction l with
  | nil => simp
  | cons a l ih =>
    rw [List.cons_append, List.flatMapM_cons, List.flatMapM_cons, ih]
    cases f a with
    | error => rfl
    | ok bs =>
      cases l.flatMapM f with
      | error => rfl
      | ok bs' =>
        cases l'.flatMapM f with
        | error => rfl
        | ok bs'' => simp

theorem flatMapM_flatMap (f : β → Except Fault (List γ)) (g : α → List β) (l : List α) :
    (l.flatMap g).flatMapM f = l.flatMapM fun a => (g a).flatMapM f := by
  induction l with
  | nil => rfl
  | cons a l ih => rw [List.flatMap_cons, flatMapM_append, List.flatMapM_cons, ih]

theorem flatMapM_eq_ok {l : List α} {f : α → Except Fault (List β)} (h : l.flatMapM f = .ok bs) :
    ∃ g : α → List β, (∀ a ∈ l, f a = .ok (g a)) ∧ bs = l.flatMap g := by
  refine ⟨fun a => (f a).toOption.getD [], ?_⟩
  induction l generalizing bs with
  | nil =>
    cases h
    simp
  | cons a l ih =>
    rw [List.flatMapM_cons] at h
    obtain ⟨cs, hcs, h⟩ := bind_eq_ok.mp h
    obtain ⟨ds, hds, h⟩ := bind_eq_ok.mp h
    cases h
    obtain ⟨hall, rfl⟩ := ih hds
    have ha : (f a).toOption.getD [] = cs := by
      rw [hcs]
      rfl
    refine ⟨List.forall_mem_cons.mpr ⟨?_, hall⟩, ?_⟩
    · simpa only [ha] using hcs
    · rw [List.flatMap_cons, ha]

def slotNames (formats : Formats) (child : Format → Bytes → Except Fault (List Bytes))
    (pre : Bytes) : Slot → Except Fault (List Bytes)
  | .padding _ => pure []
  | .item field i => do
    let suffix ← arraySuffix field.arraySize i
    let path := pre ++ ascii "/" ++ field.fieldName ++ suffix
    if field.type = .other then
      match formats.lookup field.otherTypeId with
      | none => .error .outOfRange
      | some format => child format path
    else pure [path]

theorem appendVector_succ : appendVector formats (depth + 1) format pre =
    format.slots.flatMapM (slotNames formats (appendVector formats depth) pre) := by
  rw [Format.slots, flatMapM_flatMap, appendVector]
  congr 1
  funext field
  unfold Field.slots
  split
  · simp [slotNames]
  · rw [flatMapM_map]
    rfl

theorem arraySuffix_eq (field : Field) (i : Nat) (pre : Bytes) :
    arraySuffix field.arraySize i = .error .overflow ∨
    ∃ suffix, arraySuffix field.arraySize i = .ok suffix ∧
      pre ++ ascii "/" ++ field.fieldName ++ suffix = pre ++ field.path i := by
  unfold arraySuffix Field.path
  split
  · split
    · exact .inr ⟨_, rfl, by simp⟩
    · exact .inl rfl
  · exact .inr ⟨_, rfl, by simp⟩

theorem names_inOrder {names : Slot → Except Fault (List Bytes)}
    {place : Slot → Placement}
    (h : ∀ slot start leaves stop, place slot start = .ok (leaves, stop) →
      names slot = .ok (leaves.map (·.path)) ∨ names slot = .error .overflow)
    (ho : inOrder place slots start = .ok (leaves, stop)) :
    slots.flatMapM names = .ok (leaves.map (·.path)) ∨ slots.flatMapM names = .error .overflow := by
  induction slots generalizing start leaves stop with
  | nil =>
    cases ho
    exact .inl rfl
  | cons slot slots ih =>
    obtain ⟨ls, mid, ls', hs, hr, rfl⟩ := Placement.andThen_eq_ok.mp ho
    rw [List.flatMapM_cons]
    obtain hn | hn := h slot _ _ _ hs
    · obtain hn' | hn' := ih hr
      · exact .inl (by simp [hn, hn'])
      · exact .inr (by simp [hn, hn'])
    · exact .inr (by simp [hn])

/-- `create_timeseries` names the leaves, if every suffix fits its buffer. -/
theorem appendVector_layout (h : layout formats depth format pre start = .ok (leaves, stop)) :
    appendVector formats depth format pre = .ok (leaves.map (·.path)) ∨
      appendVector formats depth format pre = .error .overflow := by
  induction depth generalizing format pre start leaves stop with
  | zero => cases h
  | succ depth ih =>
    rw [appendVector_succ]
    refine names_inOrder (fun slot start leaves stop hs => ?_) h
    cases slot with
    | padding size =>
      cases hs
      exact .inl rfl
    | item field i =>
      obtain hsuffix | ⟨suffix, hsuffix, hpath⟩ := arraySuffix_eq field i pre
      · exact .inr (by simp [slotNames, hsuffix])
      · simp only [slotNames, hsuffix, ok_bind, hpath]
        simp only [placeSlot] at hs
        split at hs
        · rename_i ht
          rw [if_pos ht]
          split at hs
          · cases hs
          · exact ih hs
        · rename_i ht
          cases hs
          rw [if_neg ht]
          exact .inl rfl

theorem createTimeseries_eq_ok (h : createTimeseries formats format = .ok timeseries) :
    appendVector formats formats.keys.length format [] = .ok (timeseries.data.map Prod.fst) := by
  obtain ⟨names, hnames, h⟩ := bind_eq_ok.mp h
  cases h
  simpa [Function.comp_def] using hnames

theorem createTimeseries_of_names
    (h : appendVector formats formats.keys.length format [] = .ok names) :
    ∃ timeseries, createTimeseries formats format = .ok timeseries ∧
      timeseries.data.map Prod.fst = names := by
  refine ⟨⟨[], names.map (·, [])⟩, ?_, by simp [Function.comp_def]⟩
  rw [createTimeseries, h]
  rfl

theorem createTimeseries_layout
    (h : layout formats formats.keys.length format [] start = .ok (leaves, stop)) :
    (∃ timeseries, createTimeseries formats format = .ok timeseries ∧
      timeseries.data.map Prod.fst = leaves.map (·.path)) ∨
    createTimeseries formats format = .error .overflow := by
  obtain hnames | hoverflow := appendVector_layout h
  · exact .inl (createTimeseries_of_names hnames)
  · exact .inr (by rw [createTimeseries, hoverflow, error_bind])

/-- The suffix of every index fits the ten bytes. -/
def Format.Printable (format : Format) : Prop :=
  ∀ field ∈ format.fields, field.isPadding = false → field.arraySize ≤ 10 ^ 8

theorem length_decimal02_le_iff : (decimal02 n).length ≤ 8 ↔ n < 10 ^ 8 := by
  unfold decimal02
  split
  · rename_i hn
    have h1 := (length_decimal_le_iff (n := n) (k := 1) (by decide)).mpr (by omega)
    rw [List.length_cons]
    omega
  · exact length_decimal_le_iff (by decide)

theorem arraySuffix_ok_iff (h : 1 < arraySize) :
    (∃ suffix, arraySuffix arraySize i = .ok suffix) ↔ i < 10 ^ 8 := by
  have hlen : (ascii "." ++ decimal02 i).length < 10 ↔ (decimal02 i).length ≤ 8 := by
    have hdot : (ascii ".").length = 1 := rfl
    rw [List.length_append]
    omega
  rw [arraySuffix, if_pos h, ← length_decimal02_le_iff, ← hlen]
  split
  · rename_i hfits
    exact iff_of_true ⟨_, rfl⟩ hfits
  · rename_i hlong
    exact iff_of_false (by simp) hlong

theorem arraySuffix_ne_overflow {field : Field} (hsize : field.arraySize ≤ 10 ^ 8)
    (hi : i < field.arraySize.toNat) : arraySuffix field.arraySize i ≠ .error .overflow := by
  by_cases hone : 1 < field.arraySize
  · have hfits : i < 10 ^ 8 := by omega
    obtain ⟨suffix, hsuffix⟩ := (arraySuffix_ok_iff hone).mpr hfits
    simp [hsuffix]
  · simp [arraySuffix, hone]

theorem flatMapM_ne_error {l : List α} {f : α → Except Fault (List β)} (h : ∀ a ∈ l, f a ≠ .error fault) :
    l.flatMapM f ≠ .error fault := by
  induction l with
  | nil => simp [pure_eq_ok]
  | cons a l ih =>
    have ha := h a (by simp)
    have hl := ih fun b hb => h b (List.mem_cons_of_mem _ hb)
    rw [List.flatMapM_cons]
    cases hfa : f a with
    | error => simpa [hfa] using ha
    | ok bs =>
      cases hfl : l.flatMapM f with
      | error => simpa [hfl] using hl
      | ok bs' => simp [pure_eq_ok]

theorem appendVector_ne_overflow (hr : Resolved formats name)
    (hf : formats.lookup name = some format) (hd : Below (Nests formats) depth name)
    (hp : ∀ b, ReflTransGen (Nests formats) name b → ∀ f, formats.lookup b = some f → f.Printable)
    (pre : Bytes) : appendVector formats depth format pre ≠ .error .overflow := by
  induction depth generalizing name format pre with
  | zero => exact hd.elim
  | succ depth ih =>
    rw [appendVector_succ]
    refine flatMapM_ne_error fun slot hslot => ?_
    cases slot with
    | padding size => simp [slotNames, pure_eq_ok]
    | item field i =>
      obtain ⟨hfield, hpad, hi⟩ := Format.mem_slots hslot
      have hsuffix := arraySuffix_ne_overflow (hp name .refl format hf field hfield hpad) hi
      simp only [slotNames]
      cases hs : arraySuffix field.arraySize i with
      | error => simpa [hs] using hsuffix
      | ok suffix =>
        rw [ok_bind]
        by_cases ht : field.type = .other
        · have hn : Nests formats name field.otherTypeId := ⟨format, hf, field, i, hslot, ht, rfl⟩
          obtain ⟨child, hc⟩ := (hr.step hn).lookup
          simp only [if_pos ht, hc]
          exact ih (hr.step hn) hc (hd _ hn) (fun b hb => hp b (hb.head hn)) _
        · simp [ht, pure_eq_ok]

theorem createTimeseries_printable (hr : Resolved formats name)
    (hf : formats.lookup name = some format)
    (hp : ∀ b, ReflTransGen (Nests formats) name b → ∀ f, formats.lookup b = some f → f.Printable)
    (h : layout formats formats.keys.length format [] start = .ok (leaves, stop)) :
    ∃ timeseries, createTimeseries formats format = .ok timeseries ∧
      timeseries.data.map Prod.fst = leaves.map (·.path) := by
  have hfits := appendVector_ne_overflow hr hf hr.below hp []
  exact createTimeseries_of_names ((appendVector_layout h).resolve_right hfits)

end Mutelemetry.Parse
