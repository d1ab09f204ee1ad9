import Mathlib.Data.List.Nodup
import Mathlib.Data.Set.Function
import Mutelemetry.Parse.Layout

/-!
# Columns

A leaf of a format has an address: the fields and the array slots on the way
down to it. The name of a column prints such an address, and the address can be
read back from it, if the names of the fields are free of both separators.
-/

namespace Mutelemetry.Parse

open ByteString Stateful Relation Height

-- ---------------------------------------------------------------------------
-- Addresses
-- ---------------------------------------------------------------------------

/-- A field and a slot of its array for each format gone into. -/
abbrev Address := List (Field × Nat)

inductive LeafAt (formats : Formats) : Format → Address → Prop
  | value (hmem : field ∈ format.fields) (hp : field.isPadding = false)
      (hi : i < field.arraySize.toNat) (ht : field.type ≠ .other) :
      LeafAt formats format [(field, i)]
  | nested (hmem : field ∈ format.fields) (hp : field.isPadding = false)
      (hi : i < field.arraySize.toNat) (ht : field.type = .other)
      (hf : formats.lookup field.otherTypeId = some child) (h : LeafAt formats child address) :
      LeafAt formats format ((field, i) :: address)

def columnName (address : Address) : Bytes := address.flatMap fun step => step.1.path step.2

/-- Every leaf has a column, and no two of the columns have one name. -/
structure Identifies (formats : Formats) (format : Format) (columns : List Bytes) : Prop where
  distinct : columns.Nodup
  leaves : Set.BijOn columnName {address | LeafAt formats format address} {name | name ∈ columns}

/-- The names of the fields are distinct and free of the separators. -/
structure Format.WellNamed (format : Format) : Prop where
  distinct : (format.fields.map (·.fieldName)).Nodup
  slash : ∀ field ∈ format.fields, charByte '/' ∉ field.fieldName
  dot : ∀ field ∈ format.fields, charByte '.' ∉ field.fieldName

theorem Format.WellNamed.field_inj {format : Format} (h : format.WellNamed)
    (hmem : field ∈ format.fields) (hmem' : field' ∈ format.fields)
    (heq : field.fieldName = field'.fieldName) : field = field' :=
  List.inj_on_of_nodup_map h.distinct hmem hmem' heq

def Throughout (formats : Formats) (name : Bytes) (P : Format → Prop) : Prop :=
  ∀ b, ReflTransGen (Nests formats) name b → ∀ f, formats.lookup b = some f → P f

theorem Throughout.here (h : Throughout formats name P) (hf : formats.lookup name = some format) :
    P format :=
  h name .refl format hf

theorem Throughout.step (h : Throughout formats name P) (hn : Nests formats name b) :
    Throughout formats b P :=
  fun c hc => h c (hc.head hn)

theorem nests_of_item (hf : formats.lookup name = some format) (hmem : field ∈ format.fields)
    (hp : field.isPadding = false) (hi : i < field.arraySize.toNat) (ht : field.type = .other) :
    Nests formats name field.otherTypeId :=
  ⟨format, hf, field, i, Format.item_mem_slots hmem hp hi, ht, rfl⟩

-- ---------------------------------------------------------------------------
-- Names can be read back
-- ---------------------------------------------------------------------------

def Field.segment (field : Field) (i : Nat) : Bytes :=
  field.fieldName ++ if 1 < field.arraySize then charByte '.' :: decimal02 i else []

theorem columnName_eq (address : Address) : columnName address =
    (address.map fun step => step.1.segment step.2).flatMap (charByte '/' :: ·) := by
  rw [List.flatMap_map]
  rfl

theorem slash_notMem_segment {field : Field} (h : charByte '/' ∉ field.fieldName) (i : Nat) :
    charByte '/' ∉ field.segment i := by
  have hslash : charByte '/' ∉ decimal02 i := notMem_decimal02 (by decide)
  have hne : charByte '/' ≠ charByte '.' := by decide
  unfold Field.segment
  split <;> simp [h, hslash, hne]

theorem takeWhile_segment {field : Field} (h : charByte '.' ∉ field.fieldName) (i : Nat) :
    (field.segment i).takeWhile (· ≠ charByte '.') = field.fieldName := by
  unfold Field.segment
  split
  · exact takeWhile_of_notMem h _
  · rw [List.append_nil]
    exact (takeWhile_eq_self_iff.mpr h).symm

theorem segment_inj {format : Format} (hn : format.WellNamed) (hmem : field ∈ format.fields)
    (hmem' : field' ∈ format.fields) (hi : i < field.arraySize.toNat)
    (hi' : i' < field'.arraySize.toNat) (heq : field.segment i = field'.segment i') :
    field = field' ∧ i = i' := by
  have hname : field.fieldName = field'.fieldName := by
    rw [← takeWhile_segment (hn.dot field hmem) i, heq, takeWhile_segment (hn.dot field' hmem')]
  obtain rfl := hn.field_inj hmem hmem' hname
  refine ⟨rfl, ?_⟩
  have hsuffix := List.append_cancel_left heq
  by_cases hsize : 1 < field.arraySize
  · rw [if_pos hsize, if_pos hsize] at hsuffix
    exact decimal02_inj.mp (List.tail_eq_of_cons_eq hsuffix)
  · omega

theorem LeafAt.slash_notMem (h : LeafAt formats format address)
    (hf : formats.lookup name = some format) (hn : Throughout formats name Format.WellNamed) :
    ∀ s ∈ address.map fun step => step.1.segment step.2, charByte '/' ∉ s := by
  induction h generalizing name with
  | value hmem =>
    simpa using slash_notMem_segment ((hn.here hf).slash _ hmem) _
  | nested hmem hp hi ht hchild _ ih =>
    rw [List.map_cons, List.forall_mem_cons]
    exact ⟨slash_notMem_segment ((hn.here hf).slash _ hmem) _,
      ih hchild (hn.step (nests_of_item hf hmem hp hi ht))⟩

theorem LeafAt.eq_of_segments (h : LeafAt formats format address)
    (h' : LeafAt formats format address') (hf : formats.lookup name = some format)
    (hn : Throughout formats name Format.WellNamed)
    (heq : (address.map fun step => step.1.segment step.2) =
      address'.map fun step => step.1.segment step.2) : address = address' := by
  induction h generalizing name address' with
  | value hmem hp hi ht =>
    cases h' with
    | value hmem' hp' hi' ht' =>
      obtain ⟨hseg, -⟩ := List.cons.inj heq
      obtain ⟨rfl, rfl⟩ := segment_inj (hn.here hf) hmem hmem' hi hi' hseg
      rfl
    | nested hmem' hp' hi' ht' =>
      obtain ⟨hseg, -⟩ := List.cons.inj heq
      obtain ⟨rfl, -⟩ := segment_inj (hn.here hf) hmem hmem' hi hi' hseg
      exact absurd ht' ht
  | nested hmem hp hi ht hchild _ ih =>
    cases h' with
    | value hmem' hp' hi' ht' =>
      obtain ⟨hseg, -⟩ := List.cons.inj heq
      obtain ⟨rfl, -⟩ := segment_inj (hn.here hf) hmem hmem' hi hi' hseg
      exact absurd ht ht'
    | nested hmem' hp' hi' ht' hchild' hrest' =>
      obtain ⟨hseg, hrest⟩ := List.cons.inj heq
      obtain ⟨rfl, rfl⟩ := segment_inj (hn.here hf) hmem hmem' hi hi' hseg
      cases hchild.symm.trans hchild'
      rw [ih hrest' hchild (hn.step (nests_of_item hf hmem hp hi ht)) hrest]

theorem columnName_injOn (hf : formats.lookup name = some format)
    (hn : Throughout formats name Format.WellNamed) :
    Set.InjOn columnName {address | LeafAt formats format address} := by
  intro address h address' h' heq
  rw [columnName_eq, columnName_eq] at heq
  exact h.eq_of_segments h' hf hn
    (flatMap_cons_inj (h.slash_notMem hf hn) (h'.slash_notMem hf hn) heq)

-- ---------------------------------------------------------------------------
-- The leaves in their order
-- ---------------------------------------------------------------------------

def slotAddresses (formats : Formats) (child : Format → List Address) : Slot → List Address
  | .padding _ => []
  | .item field i =>
    if field.type = .other then
      match formats.lookup field.otherTypeId with
      | none => []
      | some format => (child format).map ((field, i) :: ·)
    else [[(field, i)]]

def addresses (formats : Formats) : (depth : Nat) → Format → List Address
  | 0, _ => []
  | depth + 1, format => format.slots.flatMap (slotAddresses formats (addresses formats depth))

theorem mem_slotAddresses {child : Format → List Address}
    (h : address ∈ slotAddresses formats child slot) : ∃ field i rest, slot = .item field i ∧
      address = (field, i) :: rest ∧ ((field.type ≠ .other ∧ rest = []) ∨ (field.type = .other ∧
        ∃ format, formats.lookup field.otherTypeId = some format ∧ rest ∈ child format)) := by
  cases slot with
  | padding size => cases h
  | item field i =>
    rw [slotAddresses] at h
    split at h
    · rename_i ht
      split at h
      · cases h
      · rename_i format hf
        obtain ⟨rest, hrest, rfl⟩ := List.mem_map.mp h
        exact ⟨field, i, rest, rfl, rfl, .inr ⟨ht, format, hf, hrest⟩⟩
    · rename_i ht
      exact ⟨field, i, [], rfl, List.mem_singleton.mp h, .inl ⟨ht, rfl⟩⟩

theorem leafAt_of_mem (h : address ∈ addresses formats depth format) :
    LeafAt formats format address := by
  induction depth generalizing format address with
  | zero => cases h
  | succ depth ih =>
    obtain ⟨slot, hslot, h⟩ := List.mem_flatMap.mp h
    obtain ⟨field, i, rest, rfl, rfl, ⟨ht, rfl⟩ | ⟨ht, child, hchild, hrest⟩⟩ := mem_slotAddresses h
    · obtain ⟨hmem, hp, hi⟩ := Format.mem_slots hslot
      exact .value hmem hp hi ht
    · obtain ⟨hmem, hp, hi⟩ := Format.mem_slots hslot
      exact .nested hmem hp hi ht hchild (ih hrest)

theorem LeafAt.mem (h : LeafAt formats format address) (hf : formats.lookup name = some format)
    (hd : Below (Nests formats) depth name) : address ∈ addresses formats depth format := by
  induction h generalizing name depth with
  | value hmem hp hi ht =>
    cases depth with
    | zero => exact hd.elim
    | succ depth =>
      refine List.mem_flatMap.mpr ⟨_, Format.item_mem_slots hmem hp hi, ?_⟩
      simp [slotAddresses, ht]
  | nested hmem hp hi ht hchild _ ih =>
    cases depth with
    | zero => exact hd.elim
    | succ depth =>
      refine List.mem_flatMap.mpr ⟨_, Format.item_mem_slots hmem hp hi, ?_⟩
      simpa [slotAddresses, ht, hchild] using
        ih hchild (hd _ (nests_of_item hf hmem hp hi ht))

theorem Format.slots_pairwise {format : Format} (h : format.fields.Nodup) :
    format.slots.Pairwise fun slot slot' =>
      ∀ field i, slot = .item field i → slot' ≠ .item field i := by
  refine List.pairwise_flatMap.mpr ⟨fun field _ => ?_, h.imp_of_mem ?_⟩
  · unfold Field.slots
    split
    · exact List.pairwise_singleton _ _
    · rw [List.pairwise_map]
      refine List.nodup_range.imp fun {i j} hne f k hi hj => hne ?_
      cases hi
      cases hj
      rfl
  · rintro field field' - - hne slot hslot slot' hslot' f i rfl rfl
    exact hne ((Field.mem_slots hslot).1.symm.trans (Field.mem_slots hslot').1)

theorem nodup_addresses (hf : formats.lookup name = some format)
    (hn : Throughout formats name Format.WellNamed) : (addresses formats depth format).Nodup := by
  induction depth generalizing name format with
  | zero => exact List.nodup_nil
  | succ depth ih =>
    refine List.nodup_flatMap.mpr ⟨fun slot hslot => ?_, ?_⟩
    · cases slot with
      | padding size => exact List.nodup_nil
      | item field i =>
        rw [slotAddresses]
        split
        · rename_i ht
          split
          · exact List.nodup_nil
          · rename_i child hchild
            have hnests : Nests formats name field.otherTypeId :=
              ⟨format, hf, field, i, hslot, ht, rfl⟩
            exact (ih hchild (hn.step hnests)).map (List.cons_injective)
        · exact List.nodup_singleton _
    · refine (Format.slots_pairwise (hn.here hf).distinct.of_map).imp fun {slot slot'} hne => ?_
      intro address h h'
      obtain ⟨field, i, rest, rfl, rfl, -⟩ := mem_slotAddresses h
      obtain ⟨field', i', rest', rfl, heq, -⟩ := mem_slotAddresses h'
      obtain ⟨hstep, -⟩ := List.cons.inj heq
      cases hstep
      exact hne _ _ rfl rfl

-- ---------------------------------------------------------------------------
-- An array of another format
-- ---------------------------------------------------------------------------

def holder (size : Int) : Format :=
  ⟨ascii "T", [⟨.other, ascii "e", ascii "E", size⟩, ⟨.int8, ascii "a", [], 1⟩]⟩

/-- `T:E[size] e;int8_t a;` beside the format of `E`. -/
def holderTable (size : Int) (item : Format) : Formats :=
  AList.insert (ascii "T") (holder size) (AList.insert (ascii "E") item ∅)

theorem lookup_holderTable (size : Int) (item : Format) :
    (holderTable size item).lookup (ascii "T") = some (holder size) :=
  AList.lookup_insert _

theorem lookup_holderTable_item (size : Int) (item : Format) :
    (holderTable size item).lookup (ascii "E") = some item := by
  rw [holderTable, AList.lookup_insert_ne (by decide), AList.lookup_insert]

theorem lookup_holderTable_cases (h : (holderTable size item).lookup b = some f) :
    (b = ascii "T" ∧ f = holder size) ∨ (b = ascii "E" ∧ f = item) := by
  by_cases houter : b = ascii "T"
  · subst houter
    cases (lookup_holderTable size item).symm.trans h
    exact .inl ⟨rfl, rfl⟩
  · by_cases hitem : b = ascii "E"
    · subst hitem
      cases (lookup_holderTable_item size item).symm.trans h
      exact .inr ⟨rfl, rfl⟩
    · rw [holderTable, AList.lookup_insert_ne houter, AList.lookup_insert_ne hitem] at h
      cases h

theorem holderTable_resolved (h : ∀ field ∈ item.fields, field.type ≠ .other)
    (hmem : b ∈ holderTable size item) : Resolved (holderTable size item) b := by
  have hitem : Resolved (holderTable size item) (ascii "E") :=
    .flat (lookup_holderTable_item size item) h
  obtain ⟨f, hf⟩ := Option.isSome_iff_exists.mp (AList.lookup_isSome.mpr hmem)
  obtain ⟨rfl, rfl⟩ | ⟨rfl, rfl⟩ := lookup_holderTable_cases hf
  · refine .of_nested hf ?_
    rintro b ⟨f, hf', field, i, hslot, ht, rfl⟩
    cases hf.symm.trans hf'
    obtain ⟨hfield, -, -⟩ := Format.mem_slots hslot
    simp only [holder, List.mem_cons, List.not_mem_nil, or_false] at hfield
    obtain rfl | rfl := hfield
    · exact hitem
    · cases ht
  · exact hitem

theorem holder_wellNamed (size : Int) : (holder size).WellNamed where
  distinct := by simp +decide [holder]
  slash := by simp +decide [holder]
  dot := by simp +decide [holder]

theorem holderTable_wellNamed (h : item.WellNamed)
    (hf : (holderTable size item).lookup b = some f) : f.WellNamed := by
  obtain ⟨-, rfl⟩ | ⟨-, rfl⟩ := lookup_holderTable_cases hf
  · exact holder_wellNamed size
  · exact h

def scalars : Format := ⟨ascii "E", [⟨.uint8, ascii "x", [], 3⟩, ⟨.bool, ascii "y", [], 1⟩]⟩

theorem scalars_wellNamed : scalars.WellNamed := ⟨by decide, by decide, by decide⟩

def onlyPadding : Format := ⟨ascii "E", [⟨.uint8, ascii "_padding0", [], 1⟩]⟩

theorem onlyPadding_wellNamed : onlyPadding.WellNamed := ⟨by decide, by decide, by decide⟩

-- ---------------------------------------------------------------------------
-- Columns
-- ---------------------------------------------------------------------------

theorem slotNames_item {child : Format → Bytes → Except Fault (List Bytes)}
    (h : slotNames formats child pre (.item field i) = .ok names) :
    (∃ suffix, arraySuffix field.arraySize i = .ok suffix) ∧
      ((field.type ≠ .other ∧ names = [pre ++ field.path i]) ∨ (field.type = .other ∧
        ∃ format, formats.lookup field.otherTypeId = some format ∧
          child format (pre ++ field.path i) = .ok names)) := by
  obtain hsuffix | ⟨suffix, hsuffix, hpath⟩ := arraySuffix_eq field i pre
  · simp [slotNames, hsuffix] at h
  · simp only [slotNames, hsuffix, ok_bind, hpath] at h
    refine ⟨⟨suffix, hsuffix⟩, ?_⟩
    split at h
    · rename_i ht
      split at h
      · cases h
      · rename_i format hf
        exact .inr ⟨ht, format, hf, h⟩
    · rename_i ht
      cases h
      exact .inl ⟨ht, rfl⟩

theorem slotNames_addresses {child : Format → Bytes → Except Fault (List Bytes)}
    {child' : Format → List Address} (hchild : ∀ {format pre names}, child format pre = .ok names →
      names = (child' format).map (pre ++ columnName ·))
    (h : slotNames formats child pre slot = .ok names) :
    names = (slotAddresses formats child' slot).map (pre ++ columnName ·) := by
  cases slot with
  | padding size =>
    cases h
    rfl
  | item field i =>
    obtain ⟨-, ⟨ht, rfl⟩ | ⟨ht, format, hf, h⟩⟩ := slotNames_item h
    · simp [slotAddresses, ht, columnName]
    · rw [hchild h]
      simp [slotAddresses, ht, hf, columnName]

/-- `create_timeseries`, if it returns, names the leaves in their order. -/
theorem appendVector_addresses (h : appendVector formats depth format pre = .ok names) :
    names = (addresses formats depth format).map (pre ++ columnName ·) := by
  induction depth generalizing format pre names with
  | zero => cases h
  | succ depth ih =>
    rw [appendVector_succ] at h
    obtain ⟨g, hg, rfl⟩ := flatMapM_eq_ok h
    rw [addresses, List.map_flatMap]
    exact List.flatMap_congr fun slot hslot => slotNames_addresses ih (hg slot hslot)

theorem arraySize_le_of_suffix {field : Field}
    (h : ∀ i < field.arraySize.toNat, ∃ suffix, arraySuffix field.arraySize i = .ok suffix) :
    field.arraySize ≤ 10 ^ 8 := by
  by_contra hsize
  have hlast := (arraySuffix_ok_iff (by omega)).mp (h (10 ^ 8) (by omega))
  exact Nat.lt_irrefl _ hlast

/-- `create_timeseries` returns only if every suffix fits its buffer. -/
theorem appendVector_printable (hf : formats.lookup name = some format)
    (h : appendVector formats depth format pre = .ok names) :
    Throughout formats name Format.Printable := by
  intro b hb
  induction hb using ReflTransGen.head_induction_on generalizing depth format pre names with
  | refl =>
    intro f hf'
    cases hf.symm.trans hf'
    cases depth with
    | zero => cases h
    | succ depth =>
      rw [appendVector_succ] at h
      obtain ⟨g, hg, -⟩ := flatMapM_eq_ok h
      intro field hmem hp
      exact arraySize_le_of_suffix fun i hi =>
        (slotNames_item (hg _ (Format.item_mem_slots hmem hp hi))).1
  | head hn _ ih =>
    obtain ⟨format', hf', field, i, hslot, ht, rfl⟩ := hn
    cases hf.symm.trans hf'
    cases depth with
    | zero => cases h
    | succ depth =>
      rw [appendVector_succ] at h
      obtain ⟨g, hg, -⟩ := flatMapM_eq_ok h
      obtain ⟨-, ⟨hne, -⟩ | ⟨-, child, hchild, hnames⟩⟩ := slotNames_item (hg _ hslot)
      · exact absurd ht hne
      · exact ih hchild hnames

theorem identifies_of_ok (hr : Resolved formats name) (hf : formats.lookup name = some format)
    (hn : Throughout formats name Format.WellNamed)
    (h : createTimeseries formats format = .ok timeseries) :
    Identifies formats format (timeseries.data.map Prod.fst) := by
  have hinj := columnName_injOn hf hn
  have hnames := appendVector_addresses (createTimeseries_eq_ok h)
  simp only [List.nil_append] at hnames
  have hset : {name | name ∈ timeseries.data.map Prod.fst} =
      Set.image columnName {address | LeafAt formats format address} := by
    ext name
    rw [hnames]
    constructor
    · intro hmem
      obtain ⟨address, haddress, rfl⟩ := List.mem_map.mp hmem
      exact ⟨address, leafAt_of_mem haddress, rfl⟩
    · rintro ⟨address, hleaf, rfl⟩
      exact List.mem_map_of_mem (LeafAt.mem hleaf hf hr.below)
  refine ⟨?_, ?_⟩
  · rw [hnames]
    exact (nodup_addresses hf hn).map_on fun address h address' h' heq =>
      hinj (leafAt_of_mem h) (leafAt_of_mem h') heq
  · rw [hset]
    exact hinj.bijOn_image

/-- The columns that `create_timeseries` makes for a well-named format identify
its leaves if and only if no array of it, or of a format nested in it, has more
slots than its buffer of ten bytes can number. -/
theorem columns_identify_iff (hr : Resolved formats name) (hf : formats.lookup name = some format)
    (hn : Throughout formats name Format.WellNamed) :
    (∃ timeseries, createTimeseries formats format = .ok timeseries ∧
      Identifies formats format (timeseries.data.map Prod.fst)) ↔
    Throughout formats name Format.Printable := by
  constructor
  · rintro ⟨timeseries, h, -⟩
    exact appendVector_printable hf (createTimeseries_eq_ok h)
  · intro hp
    obtain ⟨leaves, stop, hlayout⟩ := hr.layout hf [] 0
    obtain ⟨timeseries, h, -⟩ := createTimeseries_printable hr hf hp hlayout
    exact ⟨timeseries, h, identifies_of_ok hr hf hn h⟩

theorem columns_identify_iff_scalars :
    ∃ timeseries, createTimeseries (holderTable 2 scalars) (holder 2) = .ok timeseries ∧
      Identifies (holderTable 2 scalars) (holder 2) (timeseries.data.map Prod.fst) := by
  have hf := lookup_holderTable 2 scalars
  have hr : Resolved (holderTable 2 scalars) (ascii "T") :=
    holderTable_resolved (by decide) (AList.lookup_isSome.mp (by rw [hf]; rfl))
  refine (columns_identify_iff hr hf fun b _ f hf' =>
    holderTable_wellNamed scalars_wellNamed hf').mpr ?_
  intro b _ f hf'
  obtain ⟨-, rfl⟩ | ⟨-, rfl⟩ := lookup_holderTable_cases hf'
  · show ∀ field ∈ (holder 2).fields, field.isPadding = false → field.arraySize ≤ 10 ^ 8
    decide
  · show ∀ field ∈ scalars.fields, field.isPadding = false → field.arraySize ≤ 10 ^ 8
    decide

/-- `.100000000` and its NUL are eleven bytes. -/
theorem columns_overflow :
    (∀ b ∈ holderTable 100000001 onlyPadding, Resolved (holderTable 100000001 onlyPadding) b) ∧
    (∀ b f, (holderTable 100000001 onlyPadding).lookup b = some f → f.WellNamed) ∧
    (holderTable 100000001 onlyPadding).lookup (ascii "T") = some (holder 100000001) ∧
    createTimeseries (holderTable 100000001 onlyPadding) (holder 100000001) = .error .overflow ∧
    ¬ ∃ timeseries, createTimeseries (holderTable 100000001 onlyPadding) (holder 100000001) =
        .ok timeseries ∧ Identifies (holderTable 100000001 onlyPadding) (holder 100000001)
          (timeseries.data.map Prod.fst) := by
  have hf := lookup_holderTable 100000001 onlyPadding
  have hr : ∀ b ∈ holderTable 100000001 onlyPadding,
      Resolved (holderTable 100000001 onlyPadding) b :=
    fun b hmem => holderTable_resolved (by decide) hmem
  have hfails : ∀ timeseries, createTimeseries (holderTable 100000001 onlyPadding)
      (holder 100000001) ≠ .ok timeseries := by
    intro timeseries h
    have hprintable := appendVector_printable hf (createTimeseries_eq_ok h)
    have hsize := hprintable.here hf ⟨.other, ascii "e", ascii "E", 100000001⟩ (by simp [holder])
      (by decide)
    exact absurd hsize (by decide)
  obtain ⟨leaves, stop, hlayout⟩ :=
    (hr _ (AList.lookup_isSome.mp (by rw [hf]; rfl))).layout hf [] 0
  refine ⟨hr, fun b f => holderTable_wellNamed onlyPadding_wellNamed, hf, ?_, ?_⟩
  · obtain ⟨timeseries, h, -⟩ | hoverflow := createTimeseries_layout hlayout
    · exact absurd h (hfails timeseries)
    · exact hoverflow
  · rintro ⟨timeseries, h, -⟩
    exact hfails timeseries h

end Mutelemetry.Parse
