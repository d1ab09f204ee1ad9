import Mutelemetry.Parse.Record

/-!
# Decoding undoes encoding

A value tree has one primitive value for each slot of a primitive field and one
subtree, behind a timestamp, for each nested slot. Encoded into a D payload and
parsed, its leaves come back in order, each with its path.
-/

namespace Mutelemetry.Parse

open ByteString Stateful Relation Height Ulog

-- ---------------------------------------------------------------------------
-- Values
-- ---------------------------------------------------------------------------

/-- A primitive value; the floating-point ones are their bits. -/
inductive Prim
  | uint8 (v : UInt8) | uint16 (v : UInt16) | uint32 (v : UInt32) | uint64 (v : UInt64)
  | int8 (v : Int8) | int16 (v : Int16) | int32 (v : Int32) | int64 (v : Int64)
  | float (bits : UInt32) | double (bits : UInt64) | bool (v : Bool) | char (v : Int8)

namespace Prim

def type : Prim → FormatType
  | uint8 _ => .uint8 | uint16 _ => .uint16 | uint32 _ => .uint32 | uint64 _ => .uint64
  | int8 _ => .int8 | int16 _ => .int16 | int32 _ => .int32 | int64 _ => .int64
  | float _ => .float | double _ => .double | bool _ => .bool | char _ => .char

def encode : Prim → Bytes
  | uint8 v => leBytes 1 v.toNat
  | uint16 v => leBytes 2 v.toNat
  | uint32 v | float v => leBytes 4 v.toNat
  | uint64 v | double v => leBytes 8 v.toNat
  | int8 v | char v => leBytes 1 v.toUInt8.toNat
  | int16 v => leBytes 2 v.toUInt16.toNat
  | int32 v => leBytes 4 v.toUInt32.toNat
  | int64 v => leBytes 8 v.toUInt64.toNat
  | bool v => leBytes 1 v.toUInt8.toNat

def toDouble : Prim → Float
  | uint8 v => v.toFloat
  | uint16 v => v.toFloat
  | uint32 v => v.toFloat
  | uint64 v => v.toFloat
  | int8 v | char v => v.toFloat
  | int16 v => v.toFloat
  | int32 v => v.toFloat
  | int64 v => v.toFloat
  | float bits => (Float32.ofBits bits).toFloat
  | double bits => .ofBits bits
  | bool v => v.toUInt8.toFloat

@[simp] theorem length_encode (v : Prim) : v.encode.length = v.type.sizeOf := by
  cases v <;> simp [encode, type, FormatType.sizeOf]

theorem toDouble_encode (v : Prim) : v.type.toDouble v.encode = v.toDouble := by
  cases v <;> simp [encode, type, FormatType.toDouble, toDouble]

theorem sizeOf_pos (v : Prim) : 0 < v.type.sizeOf := by
  cases v <;> simp [type, FormatType.sizeOf]

theorem type_ne_other (v : Prim) : v.type ≠ .other := by
  cases v <;> simp [type]

end Prim

/-- The values of the slots of a format, in their order. -/
inductive Tree
  | done
  | prim (v : Prim) (next : Tree)
  | sub (timestamp : UInt64) (child next : Tree)
  | pad (bytes : Bytes) (next : Tree)

def Tree.encode : Tree → Bytes
  | done => []
  | prim v next => v.encode ++ next.encode
  | sub timestamp child next => leBytes 8 timestamp.toNat ++ (child.encode ++ next.encode)
  | pad bytes next => bytes ++ next.encode

/-- A tree with a value of the right kind for each slot. -/
inductive Conforms (formats : Formats) : List Slot → Tree → Prop
  | done : Conforms formats [] .done
  | prim : field.type = v.type → Conforms formats slots next →
    Conforms formats (.item field i :: slots) (.prim v next)
  | sub : field.type = .other → formats.lookup field.otherTypeId = some format →
    Conforms formats format.slots child → Conforms formats slots next →
    Conforms formats (.item field i :: slots) (.sub timestamp child next)
  | pad : (bytes.length : Int) = size → Conforms formats slots next →
    Conforms formats (.padding size :: slots) (.pad bytes next)

def Tree.leaves (formats : Formats) : Tree → (pre : Bytes) → List Slot → List (Bytes × Float)
  | prim v next, pre, .item field i :: slots =>
    (pre ++ field.path i, v.toDouble) :: next.leaves formats pre slots
  | sub _ child next, pre, .item field i :: slots =>
    (match formats.lookup field.otherTypeId with
      | some format => child.leaves formats (pre ++ field.path i) format.slots
      | none => []) ++ next.leaves formats pre slots
  | pad _ next, pre, _ :: slots => next.leaves formats pre slots
  | _, _, _ => []

-- ---------------------------------------------------------------------------
-- Layout of a tree
-- ---------------------------------------------------------------------------

theorem mapM_append_ok {l l' : List α} {f : α → Except Fault β} (h : l.mapM f = .ok bs)
    (h' : l'.mapM f = .ok bs') : (l ++ l').mapM f = .ok (bs ++ bs') := by
  rw [List.mapM_append, h, h']
  rfl

/-- The leaves of a place lie in these bytes, with these values, whatever stands
before the bytes and behind them. -/
def Finds (place : Placement) (bytes : Bytes) (values : List (Bytes × Float)) : Prop :=
  ∀ before after : Bytes, ∃ leaves,
    place before.length = .ok (leaves, before.length + bytes.length) ∧
      leaves.map (·.path) = values.map Prod.fst ∧
      leaves.mapM (readLeaf (before ++ (bytes ++ after))) = .ok (values.map Prod.snd)

theorem finds_nothing : Finds (fun start => pure ([], start)) [] [] :=
  fun _ _ => ⟨[], by simp [pure_eq_ok], rfl, rfl⟩

theorem finds_value (v : Prim) (path : Bytes) :
    Finds (fun start => pure ([⟨path, start, v.type⟩], start + v.type.sizeOf)) v.encode
      [(path, v.toDouble)] := by
  intro before after
  have hfetch : fetch (before ++ (v.encode ++ after)) before.length v.type.sizeOf = .ok v.encode :=
    fetch_at before after rfl rfl (by simp)
  have hleaf : readLeaf (before ++ (v.encode ++ after)) ⟨path, before.length, v.type⟩ =
      .ok v.toDouble := by
    simp only [readLeaf, hfetch, map_ok, v.toDouble_encode]
  refine ⟨[⟨path, before.length, v.type⟩], by simp [pure_eq_ok], rfl, ?_⟩
  simp only [List.mapM_cons, hleaf]
  rfl

theorem Finds.andThen {place place' : Placement} (h : Finds place bytes values)
    (h' : Finds place' bytes' values') :
    Finds (place.andThen place') (bytes ++ bytes') (values ++ values') := by
  intro before after
  obtain ⟨leaves, hplace, hpaths, hread⟩ := h before (bytes' ++ after)
  obtain ⟨leaves', hplace', hpaths', hread'⟩ := h' (before ++ bytes) after
  have hmid : ((before ++ bytes).length : Int) = before.length + bytes.length := by simp
  have hbuf : before ++ (bytes ++ (bytes' ++ after)) = before ++ ((bytes ++ bytes') ++ after) := by
    simp
  have hbuf' : before ++ bytes ++ (bytes' ++ after) = before ++ ((bytes ++ bytes') ++ after) := by
    simp
  rw [hmid] at hplace'
  rw [hbuf] at hread
  rw [hbuf'] at hread'
  refine ⟨leaves ++ leaves', ?_, by simp [hpaths, hpaths'], ?_⟩
  · refine Placement.andThen_eq_ok.mpr ⟨leaves, _, leaves', hplace, ?_, rfl⟩
    rw [hplace', List.length_append]
    simp [Int.add_assoc]
  · simpa using mapM_append_ok hread hread'

theorem Finds.behind {place : Placement} (h : Finds place bytes values) (gap : Bytes)
    (hgap : (gap.length : Int) = size) :
    Finds (fun start => place (start + size)) (gap ++ bytes) values := by
  intro before after
  obtain ⟨leaves, hplace, hpaths, hread⟩ := h (before ++ gap) after
  have hstart : ((before ++ gap).length : Int) = before.length + size := by simp [← hgap]
  have hbuf : before ++ gap ++ (bytes ++ after) = before ++ ((gap ++ bytes) ++ after) := by simp
  rw [hstart] at hplace
  rw [hbuf] at hread
  refine ⟨leaves, ?_, hpaths, hread⟩
  show place (before.length + size) = _
  rw [hplace, List.length_append, ← hgap]
  simp [Int.add_assoc]

/-- The leaves of a tree lie where the layout says. -/
theorem Conforms.finds (h : Conforms formats slots t)
    (hd : ∀ field i, .item field i ∈ slots → field.type = .other →
      Below (Nests formats) depth field.otherTypeId) (pre : Bytes) :
    Finds (inOrder (placeSlot formats (layout formats depth) pre) slots) t.encode
      (t.leaves formats pre slots) := by
  induction h generalizing depth pre with
  | done => exact finds_nothing
  | @prim slots next field i v ht hnext ih =>
    have hrest := ih (fun f j hm => hd f j (List.mem_cons_of_mem _ hm)) pre
    have hslot : placeSlot formats (layout formats depth) pre (.item field i) =
        fun start : Int =>
          pure ([⟨pre ++ field.path i, start, v.type⟩], start + v.type.sizeOf) := by
      funext start
      rw [placeSlot, if_neg (ht ▸ v.type_ne_other), ht]
    have hfirst := finds_value v (pre ++ field.path i)
    rw [← hslot] at hfirst
    exact hfirst.andThen hrest
  | @sub format child slots next field i timestamp ht hf hchild hnext ihc ih =>
    have hrest := ih (fun f j hm => hd f j (List.mem_cons_of_mem _ hm)) pre
    have hbelow := hd field i (by simp) ht
    cases depth with
    | zero => exact hbelow.elim
    | succ depth =>
      have hslot : placeSlot formats (layout formats (depth + 1)) pre (.item field i) =
          fun start => layout formats (depth + 1) format (pre ++ field.path i) (start + 8) := by
        funext start
        simp only [placeSlot, if_pos ht, hf]
      have hbytes : Finds (layout formats (depth + 1) format (pre ++ field.path i)) child.encode
          (child.leaves formats (pre ++ field.path i) format.slots) :=
        ihc (fun f j hm ht' => hbelow _ ⟨format, hf, f, j, hm, ht', rfl⟩) _
      have htime : ((leBytes 8 timestamp.toNat).length : Int) = 8 := by simp
      have hfirst := hbytes.behind _ htime
      rw [← hslot] at hfirst
      have hwhole := hfirst.andThen hrest
      rw [List.append_assoc] at hwhole
      simp only [Tree.encode, Tree.leaves, hf]
      exact hwhole
  | @pad size slots next bytes hb hnext ih =>
    have hrest := ih (fun f j hm => hd f j (List.mem_cons_of_mem _ hm)) pre
    have hfirst := finds_nothing.behind bytes hb
    rw [List.append_nil] at hfirst
    exact hfirst.andThen hrest

-- ---------------------------------------------------------------------------
-- Room for the suffixes
-- ---------------------------------------------------------------------------

def Slot.isItem : Slot → Bool
  | .padding _ => false
  | .item _ _ => true

/-- An item takes at least a byte: a primitive its value, a subtree its timestamp. -/
theorem Conforms.countP_le (h : Conforms formats slots t) :
    slots.countP Slot.isItem ≤ t.encode.length := by
  induction h with
  | done => simp
  | @prim slots next field i v ht hnext ih =>
    have hpos := v.sizeOf_pos
    have hlen := v.length_encode
    simp only [List.countP_cons, Slot.isItem, Tree.encode, List.length_append, if_true]
    omega
  | sub ht hf hchild hnext ihc ih =>
    simp only [List.countP_cons, Slot.isItem, Tree.encode, List.length_append, length_leBytes,
      if_true]
    omega
  | pad hb hnext ih =>
    simp only [List.countP_cons, Slot.isItem, Tree.encode, List.length_append, if_neg,
      Bool.false_eq_true, not_false_eq_true]
    omega

theorem Conforms.child (h : Conforms formats slots t) (hm : .item field i ∈ slots)
    (ht : field.type = .other) (hf : formats.lookup field.otherTypeId = some format) :
    ∃ child, Conforms formats format.slots child ∧ child.encode.length ≤ t.encode.length := by
  induction h with
  | done => cases hm
  | @prim slots next f j v hv hnext ih =>
    obtain heq | hm := List.mem_cons.mp hm
    · cases heq
      exact absurd (hv.symm.trans ht) v.type_ne_other
    · obtain ⟨child, hc, hle⟩ := ih hm
      refine ⟨child, hc, ?_⟩
      simp only [Tree.encode, List.length_append]
      omega
  | @sub format' child slots next f j timestamp _ hf' hchild hnext ihc ih =>
    obtain heq | hm := List.mem_cons.mp hm
    · cases heq
      cases hf.symm.trans hf'
      refine ⟨child, hchild, ?_⟩
      simp only [Tree.encode, List.length_append]
      omega
    · obtain ⟨child', hc, hle⟩ := ih hm
      refine ⟨child', hc, ?_⟩
      simp only [Tree.encode, List.length_append]
      omega
  | pad hb hnext ih =>
    obtain heq | hm := List.mem_cons.mp hm
    · cases heq
    · obtain ⟨child, hc, hle⟩ := ih hm
      refine ⟨child, hc, ?_⟩
      simp only [Tree.encode, List.length_append]
      omega

theorem Format.arraySize_le {format : Format} (hmem : field ∈ format.fields)
    (hp : field.isPadding = false) : field.arraySize.toNat ≤ format.slots.countP Slot.isItem := by
  have hcount : field.slots.countP Slot.isItem = field.arraySize.toNat := by
    simp [Field.slots, hp, List.countP_map, Function.comp_def, Slot.isItem]
  obtain ⟨fields, fields', heq⟩ := List.append_of_mem hmem
  rw [Format.slots, heq, List.flatMap_append, List.flatMap_cons, List.countP_append,
    List.countP_append, hcount]
  omega

/-- A payload leaves no room for an array of 10^8 slots. -/
theorem Conforms.printable (hr : Resolved formats name)
    (hf : formats.lookup name = some format) (h : Conforms formats format.slots t)
    (hsize : t.encode.length < 2 ^ 16) (b : Bytes) (hb : ReflTransGen (Nests formats) name b) :
    ∀ f, formats.lookup b = some f → f.Printable := by
  induction hb using ReflTransGen.head_induction_on generalizing format t with
  | refl =>
    intro f hf'
    cases hf.symm.trans hf'
    intro field hmem hp
    have hle := Format.arraySize_le hmem hp
    have hcount := h.countP_le
    omega
  | head hn _ ih =>
    obtain ⟨format', hf', field, i, hm, ht, rfl⟩ := id hn
    cases hf.symm.trans hf'
    obtain ⟨child, hc⟩ := (hr.step hn).lookup
    obtain ⟨t', ht', hle⟩ := h.child hm ht hc
    exact ih (hr.step hn) hc ht' (by omega)

-- ---------------------------------------------------------------------------
-- D messages
-- ---------------------------------------------------------------------------

theorem Conforms.layout (hr : Resolved formats name) (hf : formats.lookup name = some format)
    (h : Conforms formats format.slots t) (before after : Bytes) :
    ∃ leaves, layout formats formats.keys.length format [] before.length =
        .ok (leaves, before.length + t.encode.length) ∧
      leaves.map (·.path) = (t.leaves formats [] format.slots).map Prod.fst ∧
      leaves.mapM (readLeaf (before ++ (t.encode ++ after))) =
        .ok ((t.leaves formats [] format.slots).map Prod.snd) := by
  have hbelow := hr.below
  cases hd : formats.keys.length with
  | zero => rw [hd] at hbelow; exact hbelow.elim
  | succ depth =>
    rw [hd] at hbelow
    exact h.finds (fun field i hm ht => hbelow _ ⟨format, hf, field, i, hm, ht, rfl⟩) [] before after

theorem Conforms.createTimeseries (hr : Resolved formats name)
    (hf : formats.lookup name = some format) (h : Conforms formats format.slots t)
    (hsize : t.encode.length < 2 ^ 16) : ∃ created, createTimeseries formats format = .ok created ∧
      created.data.map Prod.fst = (t.leaves formats [] format.slots).map Prod.fst := by
  obtain ⟨leaves, hl, hpaths, -⟩ := h.layout hr hf [] []
  obtain ⟨created, hcreated, hcpaths⟩ :=
    createTimeseries_printable hr hf (h.printable hr hf hsize) hl
  exact ⟨created, hcreated, hcpaths.trans hpaths⟩

theorem zip_fst_snd (l : List (α × β)) : (l.map Prod.fst).zip (l.map Prod.snd) = l := by
  rw [List.zip_map']
  exact List.map_id l

def dataPayload (msgId : UInt16) (tval : UInt64) (t : Tree) : Bytes :=
  leBytes 2 msgId.toNat ++ (leBytes 8 tval.toNat ++ t.encode)

theorem msgId_dataPayload (before after : Bytes) (msgId : UInt16) (tval : UInt64) (t : Tree) :
    readUInt16 (before ++ (dataPayload msgId tval t ++ after)) before.length = .ok msgId :=
  readUInt16_at before (leBytes 8 tval.toNat ++ (t.encode ++ after)) _ (by simp [dataPayload]) rfl

theorem seriesFor_tree {p : MutelemetryParser} (hname : sub.format = some name)
    (hf : p.formats.lookup name = some format) (hr : Resolved p.formats name)
    (ht : Conforms p.formats format.slots t) (hsize : t.encode.length < 2 ^ 16)
    (hseries : ∀ timeseries, p.timeseries.lookup (p.seriesName sub) = some timeseries →
      ∃ created, createTimeseries p.formats format = .ok created ∧
        timeseries.data.map Prod.fst = created.data.map Prod.fst) :
    ∃ timeseries, p.seriesFor sub = .ok timeseries ∧
      timeseries.data.map Prod.fst = (t.leaves p.formats [] format.slots).map Prod.fst := by
  obtain ⟨created, hcreated, hpaths⟩ := ht.createTimeseries hr hf hsize
  have hformat : p.formatOf sub = .ok format := by simp [MutelemetryParser.formatOf, hname, hf]
  unfold MutelemetryParser.seriesFor
  split
  · rename_i timeseries hl
    obtain ⟨created', hc', hp⟩ := hseries timeseries hl
    cases hcreated.symm.trans hc'
    exact ⟨timeseries, rfl, hp.trans hpaths⟩
  · exact ⟨created, by rw [hformat, ok_bind, hcreated], hpaths⟩

theorem length_dataPayload (msgId : UInt16) (tval : UInt64) (t : Tree) :
    (dataPayload msgId tval t).length = 10 + t.encode.length := by
  simp [dataPayload]
  omega

/-- The columns of the tree take its values, and the walk ends behind its bytes. -/
theorem walk_tree (hf : formats.lookup name = some format) (hr : Resolved formats name)
    (ht : Conforms formats format.slots t)
    (hpaths : timeseries.data.map Prod.fst = (t.leaves formats [] format.slots).map Prod.fst)
    (msgId : UInt16) (tval : UInt64) (before after : Bytes) :
    (parseDataIntl formats (before ++ (dataPayload msgId tval t ++ after))
      formats.keys.length format).run ⟨timeseries, ↑(before.length + 10), 0⟩ =
        .ok () ⟨timeseries.setColumns 0 ((t.leaves formats [] format.slots).map Prod.snd),
          before.length + (dataPayload msgId tval t).length, timeseries.data.length⟩ := by
  obtain ⟨leaves, hl, hlpaths, hread⟩ := ht.layout hr hf
    (before ++ (leBytes 2 msgId.toNat ++ leBytes 8 tval.toNat)) after
  have hstart : ((before ++ (leBytes 2 msgId.toNat ++ leBytes 8 tval.toNat)).length : Int) =
      ↑(before.length + 10) := by simp
  have hbuf : before ++ (leBytes 2 msgId.toNat ++ leBytes 8 tval.toNat) ++ (t.encode ++ after) =
      before ++ (dataPayload msgId tval t ++ after) := by simp [dataPayload]
  have hstop : (↑(before.length + 10) : Int) + t.encode.length =
      before.length + (dataPayload msgId tval t).length := by
    rw [length_dataPayload]
    omega
  rw [hstart, hstop] at hl
  rw [hbuf] at hread
  have hcols : leaves.length = timeseries.data.length := by
    simpa using congrArg List.length (hlpaths.trans hpaths.symm)
  exact run_parseDataIntl_eq_ok.mpr ⟨leaves, _, _, hl, hread, hcols.le, by rw [hcols]⟩

theorem delivers_tree {p : MutelemetryParser} (hname : sub.format = some name)
    (hf : p.formats.lookup name = some format) (hr : Resolved p.formats name)
    (ht : Conforms p.formats format.slots t) (hsize : (dataPayload msgId tval t).length < 2 ^ 16)
    (hseries : ∀ timeseries, p.timeseries.lookup (p.seriesName sub) = some timeseries →
      ∃ created, createTimeseries p.formats format = .ok created ∧
        timeseries.data.map Prod.fst = created.data.map Prod.fst) (before after : Bytes) :
    ∃ q, Delivers p (before ++ (dataPayload msgId tval t ++ after)) before.length sub q ∧
      q.dataCalls =
        p.dataCalls ++ [⟨p.seriesName sub, tval, t.leaves p.formats [] format.slots⟩] := by
  obtain ⟨timeseries, hts, hpaths⟩ :=
    seriesFor_tree hname hf hr ht (by rw [length_dataPayload] at hsize; omega) hseries
  have htval : readUInt64 (before ++ (dataPayload msgId tval t ++ after)) (before.length + 2) =
      .ok tval :=
    readUInt64_at (before ++ leBytes 2 msgId.toNat) (t.encode ++ after) _ (by simp [dataPayload])
      (by simp)
  have htimed : ({ timeseries with timestamps := [tval] } : Timeseries).data.map Prod.fst = _ :=
    hpaths
  have hwalk := walk_tree hf hr ht htimed msgId tval before after
  have hdata := getLatestData_setColumns { timeseries with timestamps := [tval] }
    ((t.leaves p.formats [] format.slots).map Prod.snd) (p.seriesName sub) rfl
    (by simpa using congrArg List.length hpaths)
  rw [hpaths, zip_fst_snd] at hdata
  have hformat : p.formatOf sub = .ok format := by simp [MutelemetryParser.formatOf, hname, hf]
  exact ⟨_, .mk hts htval hformat hwalk hdata, rfl⟩

/-- A D message that encodes a tree of its format calls the handler once, with
the leaves of the tree, and all of its bytes are read. -/
theorem parseData_encode {p : MutelemetryParser}
    (hsub : p.subscriptions.lookup msgId = some sub) (hname : sub.format = some name)
    (hf : p.formats.lookup name = some format) (hr : Resolved p.formats name)
    (ht : Conforms p.formats format.slots t) (hsize : (dataPayload msgId tval t).length < 2 ^ 16)
    (hseries : ∀ timeseries, p.timeseries.lookup (p.seriesName sub) = some timeseries →
      ∃ created, createTimeseries p.formats format = .ok created ∧
        timeseries.data.map Prod.fst = created.data.map Prod.fst) (before after : Bytes) :
    (∃ q, (parseData (before ++ (dataPayload msgId tval t ++ after)) before.length).run p =
        .ok .definitionOrData q ∧
      q.dataCalls =
        p.dataCalls ++ [⟨p.seriesName sub, tval, t.leaves p.formats [] format.slots⟩]) ∧
    ∃ timeseries c, p.seriesFor sub = .ok timeseries ∧
      (parseDataIntl p.formats (before ++ (dataPayload msgId tval t ++ after))
        p.formats.keys.length format).run
        ⟨{ timeseries with timestamps := [tval] }, ↑(before.length + 10), 0⟩ = .ok () c ∧
      c.message = before.length + (dataPayload msgId tval t).length := by
  constructor
  · obtain ⟨q, hd, hcalls⟩ := delivers_tree hname hf hr ht hsize hseries before after
    have hid := msgId_dataPayload before after msgId tval t
    exact ⟨q, run_parseData_delivers hid hsub hd, hcalls⟩
  · obtain ⟨timeseries, hts, hpaths⟩ :=
      seriesFor_tree hname hf hr ht (by rw [length_dataPayload] at hsize; omega) hseries
    have htimed : ({ timeseries with timestamps := [tval] } : Timeseries).data.map Prod.fst = _ :=
      hpaths
    exact ⟨timeseries, _, hts, walk_tree hf hr ht htimed msgId tval before after, rfl⟩

def inner : Format := ⟨ascii "Inner", [⟨.int16, ascii "v", [], 1⟩]⟩

def padded : Format :=
  ⟨ascii "T", [⟨.int8, ascii "a", [], 2⟩, ⟨.uint8, ascii "_padding0", [], 1⟩,
    ⟨.other, ascii "x", ascii "Inner", 2⟩, ⟨.bool, ascii "b", [], 1⟩]⟩

def paddedTree : Tree :=
  .prim (.int8 1) (.prim (.int8 (-2)) (.pad [9]
    (.sub 8 (.prim (.int16 300) .done) (.sub 9 (.prim (.int16 (-4)) .done)
      (.prim (.bool true) .done)))))

def paddedParser : MutelemetryParser :=
  let formats : Formats := AList.insert (ascii "T") padded (AList.insert (ascii "Inner") inner ∅)
  { MutelemetryParser.new with state := .definitionOrData, formats := formats }.subscribe
    (subscriptionOf formats 0 0 (ascii "T"))

theorem parseData_encode_padded :
    ∃ q, (parseData ([] ++ (dataPayload 0 7 paddedTree ++ [])) 0).run paddedParser =
        .ok .definitionOrData q ∧
      q.dataCalls = [⟨ascii "T", 7, [(ascii "/a.00", (1 : Int8).toFloat),
        (ascii "/a.01", (-2 : Int8).toFloat), (ascii "/x.00/v", (300 : Int16).toFloat),
        (ascii "/x.01/v", (-4 : Int16).toFloat), (ascii "/b", (1 : UInt8).toFloat)]⟩] := by
  have hf : paddedParser.formats.lookup (ascii "T") = some padded := AList.lookup_insert _
  have hin : paddedParser.formats.lookup (ascii "Inner") = some inner := by decide
  have hr : Resolved paddedParser.formats (ascii "T") := by
    refine .of_nested hf ?_
    rintro b ⟨format, hf', field, i, hmem, ht, rfl⟩
    cases hf.symm.trans hf'
    have hfield : ∀ f ∈ padded.fields, f.type = .other → f.otherTypeId = ascii "Inner" := by decide
    rw [hfield field (Format.mem_slots hmem).1 ht]
    exact .flat hin (by decide)
  have hchild : ∀ v, Conforms paddedParser.formats inner.slots (.prim (.int16 v) .done) :=
    fun v => .prim rfl .done
  have ht : Conforms paddedParser.formats padded.slots paddedTree :=
    .prim rfl (.prim rfl (.pad rfl (.sub rfl hin (hchild 300) (.sub rfl hin (hchild (-4))
      (.prim rfl .done)))))
  have hsub : paddedParser.subscriptions.lookup 0 =
      some (subscriptionOf paddedParser.formats 0 0 (ascii "T")) := by decide
  have hnew : paddedParser.timeseries = ∅ := rfl
  exact (parseData_encode hsub (by decide) hf hr ht (by decide) (by simp [hnew]) [] []).1

end Mutelemetry.Parse
