import Mutelemetry.Parse.Record
import Mutelemetry.Parse.Resolution
import Mutelemetry.Parse.Trail

/-!
# Reads inside the message

`parse` is given no length. Which frames it reads within their bytes, and within
its own vectors, is decided by the state, the type and the lengths in the body.
-/

namespace Mutelemetry.Parse

open ByteString Stateful Ulog

/-- A read outside the buffer, of no element of a vector, or behind a null pointer. -/
def Fault.isStray : Fault → Bool
  | .outOfBounds | .vectorIndex | .emptyBack | .nullFormat => true
  | _ => false

theorem Fault.isStray_of_isThrown {fault : Fault} (h : fault.isThrown = true) :
    fault.isStray = false := by
  cases fault <;> first | rfl | cases h

-- ---------------------------------------------------------------------------
-- Reads
-- ---------------------------------------------------------------------------

/-- The computation may fail, but not by a stray read. -/
def Unstrayed (x : Except Fault α) : Prop := ∀ fault, x = .error fault → fault.isStray = false

@[simp] theorem unstrayed_ok (a : α) : Unstrayed (.ok a : Except Fault α) := fun _ h => nomatch h

@[simp] theorem unstrayed_error (fault : Fault) :
    Unstrayed (.error fault : Except Fault α) ↔ fault.isStray = false := by
  constructor
  · exact fun h => h fault rfl
  · rintro h _ ⟨⟩
    exact h

theorem unstrayed_bind {x : Except Fault α} {f : α → Except Fault β} :
    Unstrayed (x >>= f) ↔ Unstrayed x ∧ ∀ a, x = .ok a → Unstrayed (f a) := by
  cases x with
  | ok a => simp
  | error fault => simp

theorem unstrayed_map {x : Except Fault α} {f : α → β} : Unstrayed (x.map f) ↔ Unstrayed x := by
  cases x <;> simp [Except.map]

theorem unstrayed_fetch {buffer : Bytes} {pos : Nat} :
    Unstrayed (fetch buffer pos n) ↔ pos + n ≤ buffer.length := by
  by_cases h : pos + n ≤ buffer.length
  · simp [fetch_of_le h, h]
  · have hnone : window buffer pos n = none := if_neg h
    rw [fetch, if_pos (by omega), Int.toNat_natCast, hnone]
    simp [Fault.isStray, h]

theorem unstrayed_readUInt8 : Unstrayed (readUInt8 buffer pos) ↔ pos + 1 ≤ buffer.length :=
  unstrayed_map.trans unstrayed_fetch

theorem unstrayed_readUInt16 : Unstrayed (readUInt16 buffer pos) ↔ pos + 2 ≤ buffer.length :=
  unstrayed_map.trans unstrayed_fetch

theorem unstrayed_readUInt32 : Unstrayed (readUInt32 buffer pos) ↔ pos + 4 ≤ buffer.length :=
  unstrayed_map.trans unstrayed_fetch

theorem unstrayed_readUInt64 : Unstrayed (readUInt64 buffer pos) ↔ pos + 8 ≤ buffer.length :=
  unstrayed_map.trans unstrayed_fetch

-- ---------------------------------------------------------------------------
-- D messages
-- ---------------------------------------------------------------------------

def Leaf.Within (leaf : Leaf) (n : Nat) : Prop :=
  0 ≤ leaf.offset ∧ leaf.offset + leaf.type.sizeOf ≤ n

theorem unstrayed_readLeaf : Unstrayed (readLeaf buffer leaf) ↔ leaf.Within buffer.length := by
  rw [readLeaf, show leaf.type.toDouble <$> fetch buffer leaf.offset leaf.type.sizeOf =
    (fetch buffer leaf.offset leaf.type.sizeOf).map leaf.type.toDouble from rfl, unstrayed_map]
  by_cases h : 0 ≤ leaf.offset
  · obtain ⟨offset, hoffset⟩ := Int.eq_ofNat_of_zero_le h
    rw [hoffset, unstrayed_fetch, Leaf.Within, hoffset]
    omega
  · rw [fetch, if_neg h]
    simp [Fault.isStray, Leaf.Within, h]

theorem unstrayed_storeLeaves (hi : index ≤ timeseries.data.length) :
    Unstrayed (storeLeaves buffer leaves timeseries index) ↔
      (∀ leaf ∈ leaves, leaf.Within buffer.length) ∧
        index + leaves.length ≤ timeseries.data.length := by
  induction leaves generalizing timeseries index with
  | nil => simp [storeLeaves, hi]
  | cons leaf leaves ih =>
    rw [storeLeaves, unstrayed_bind, unstrayed_readLeaf]
    by_cases hw : leaf.Within buffer.length
    · obtain ⟨value, hvalue⟩ : ∃ value, readLeaf buffer leaf = .ok value := by
        cases hr : readLeaf buffer leaf with
        | ok value => exact ⟨value, rfl⟩
        | error fault =>
          have hstray := unstrayed_readLeaf.mpr hw fault hr
          rw [readLeaf_error hr] at hstray
          cases hstray
      simp only [hvalue, Except.ok.injEq, forall_eq', hw, true_and]
      by_cases hlt : index < timeseries.data.length
      · rw [if_pos hlt, ih (by rw [Timeseries.length_setColumn]; omega)]
        simp only [Timeseries.length_setColumn, List.forall_mem_cons, hw, true_and,
          List.length_cons]
        rw [show index + 1 + leaves.length = index + (leaves.length + 1) by omega]
      · rw [if_neg hlt]
        simp only [unstrayed_error, Fault.isStray, reduceCtorEq, List.length_cons, false_iff]
        omega
    · simp [hw]

theorem storeLeaves_stray (h : storeLeaves buffer leaves timeseries index = .error fault) :
    fault.isStray = true := by
  induction leaves generalizing timeseries index with
  | nil => cases h
  | cons leaf leaves ih =>
    simp only [storeLeaves] at h
    cases hr : readLeaf buffer leaf with
    | error f =>
      rw [hr] at h
      cases h
      rw [readLeaf_error hr]
      rfl
    | ok value =>
      rw [hr, ok_bind] at h
      split at h
      · exact ih h
      · cases h
        rfl

/-- But for a stray read, `parse_data_intl` is stopped where its trail is. -/
theorem parseDataIntl_stops (h : (parseDataIntl formats buffer depth format).run c = .error fault c')
    (hstray : fault.isStray = false) : (trail formats depth format c.message).stop = .error fault := by
  have hwalk : Treads buffer (parseDataIntl formats buffer depth format) _ :=
    parseDataIntl_treads depth format
  replace hwalk := hwalk c
  cases hstore : storeLeaves buffer (trail formats depth format c.message).leaves c.timeseries c.index with
  | error fault' =>
    simp only [hstore] at hwalk
    obtain ⟨c'', hrun⟩ := hwalk
    cases h.symm.trans hrun
    cases hstray.symm.trans (storeLeaves_stray hstore)
  | ok r =>
    cases hstop : (trail formats depth format c.message).stop with
    | ok stop =>
      simp only [hstore, hstop] at hwalk
      cases h.symm.trans hwalk
    | error fault' =>
      simp only [hstore, hstop] at hwalk
      obtain ⟨c'', hrun⟩ := hwalk
      cases h.symm.trans hrun
      rfl

/-- The leaves of a trail are in the buffer and have a column, and no column is
left that never had a value. -/
structure Trail.Readable (t : Trail) (size : Nat) (timeseries : Timeseries) : Prop where
  within : ∀ leaf ∈ t.leaves, leaf.Within size
  columns : t.leaves.length ≤ timeseries.data.length
  filled : ∀ stop, t.stop = .ok stop → ∀ col ∈ timeseries.data.drop t.leaves.length, col.2 ≠ []

/-- Where a D message reads, for a subscription: its format is there, and so is
all that the format leads to, however deep. -/
def DataReadable (p : MutelemetryParser) (size message : Nat) (sub : Subscription) : Prop :=
  ∃ format, p.formatOf sub = .ok format ∧ ∀ timeseries, p.seriesFor sub = .ok timeseries →
    message + 10 ≤ size ∧
      ∀ depth, (trail p.formats depth format ↑(message + 10)).Readable size timeseries

theorem unstrayed_mapM_latestValue (cols : List (Bytes × List Float)) :
    Unstrayed (cols.mapM latestValue) ↔ ∀ col ∈ cols, col.2 ≠ [] := by
  induction cols with
  | nil => simp [pure_eq_ok]
  | cons col cols ih =>
    rw [List.mapM_cons, unstrayed_bind]
    cases hcol : latestValue col with
    | error fault =>
      have hempty : col.2 = [] ∧ fault.isStray = true := by
        unfold latestValue at hcol
        split at hcol <;> cases hcol
        rename_i hlast
        exact ⟨List.getLast?_eq_none_iff.mp hlast, rfl⟩
      simp [hempty]
    | ok value =>
      have hvalue : col.2 ≠ [] := by
        unfold latestValue at hcol
        split at hcol <;> cases hcol
        rename_i hlast
        rintro heq
        rw [heq] at hlast
        cases hlast
      simp only [unstrayed_ok, Except.ok.injEq, forall_eq', true_and, unstrayed_bind, ih,
        List.forall_mem_cons]
      simp [hvalue, pure_eq_ok]

theorem unstrayed_getLatestData {timeseries : Timeseries} (ht : timeseries.timestamps = [tval]) :
    Unstrayed (timeseries.getLatestData name) ↔ ∀ col ∈ timeseries.data, col.2 ≠ [] := by
  rw [Timeseries.getLatestData, ht, List.getLast?_singleton]
  simp only [unstrayed_bind, unstrayed_mapM_latestValue]
  simp [pure_eq_ok]

def dataOutcome (depth : Nat) (p : MutelemetryParser) (buffer : Bytes) (message : Nat)
    (sub : Subscription) : Except Fault MessageData := do
  let timeseries ← p.seriesFor sub
  let tval ← readUInt64 buffer (message + 2)
  let format ← p.formatOf sub
  match (parseDataIntl p.formats buffer depth format).run
      ⟨{ timeseries with timestamps := [tval] }, ↑(message + 10), 0⟩ with
  | .error fault _ => .error fault
  | .ok _ c => c.timeseries.getLatestData (p.seriesName sub)

theorem run_parseDataTo_outcome {p : MutelemetryParser} (depth : Nat)
    (hid : readUInt16 buffer message = .ok msgId) (hsub : p.subscriptions.lookup msgId = some sub) :
    ∃ q, q.strayed = p.strayed ∧ (parseDataTo depth buffer message).run p =
      match dataOutcome depth p buffer message sub with
      | .ok _ => .ok .definitionOrData q
      | .error fault => .error fault q := by
  simp only [parseDataTo, run_seq, hid, run_lift_ok, EStateM.run_get, hsub, dataOutcome]
  cases hseries : p.seriesFor sub with
  | error fault => exact ⟨p, rfl, rfl⟩
  | ok timeseries =>
    obtain ⟨t, hnew, -⟩ := run_insertSeries p (p.seriesName sub) timeseries
    simp only [run_lift_ok, hnew, ok_bind]
    cases htval : readUInt64 buffer (message + 2) with
    | error fault => exact ⟨_, by rfl, rfl⟩
    | ok tval =>
      simp only [run_lift_ok, ok_bind]
      cases hformat : p.formatOf sub with
      | error fault => exact ⟨_, by rfl, rfl⟩
      | ok format =>
        simp only [run_lift_ok, ok_bind]
        cases hwalk : (parseDataIntl p.formats buffer depth format).run
            ⟨{ timeseries with timestamps := [tval] }, ↑(message + 10), 0⟩ with
        | error fault c => exact ⟨_, by rfl, rfl⟩
        | ok u c =>
          simp only [run_seq]
          cases hdata : c.timeseries.getLatestData (p.seriesName sub) with
          | error fault => exact ⟨_, by rfl, rfl⟩
          | ok data => exact ⟨_, by rfl, rfl⟩

theorem unstrayed_appendVector (formats : Formats) (depth : Nat) (format : Format) (pre : Bytes) :
    Unstrayed (appendVector formats depth format pre) := by
  intro fault h
  by_cases hover : fault = .overflow
  · rw [hover]
    rfl
  · obtain rfl | rfl := trail_error (appendVector_stops h hover 0) <;> rfl

theorem unstrayed_formatOf (p : MutelemetryParser) (sub : Subscription) :
    Unstrayed (p.formatOf sub) ↔ ∃ format, p.formatOf sub = .ok format := by
  unfold MutelemetryParser.formatOf
  split <;> simp [Fault.isStray]

theorem unstrayed_seriesFor {p : MutelemetryParser} (h : p.formatOf sub = .ok format) :
    Unstrayed (p.seriesFor sub) := by
  unfold MutelemetryParser.seriesFor
  split
  · simp
  · rw [h, ok_bind, createTimeseries, unstrayed_bind]
    exact ⟨unstrayed_appendVector _ _ _ _, fun _ _ => unstrayed_ok _⟩

theorem unstrayed_trail (formats : Formats) (depth : Nat) (format : Format) (start : Int) :
    Unstrayed (trail formats depth format start).stop := by
  intro fault h
  obtain rfl | rfl := trail_error h <;> rfl

theorem filled_setColumns (timeseries : Timeseries) (hlen : values.length ≤ timeseries.data.length) :
    (∀ col ∈ (timeseries.setColumns 0 values).data, col.2 ≠ []) ↔
      ∀ col ∈ timeseries.data.drop values.length, col.2 ≠ [] := by
  have htake : (timeseries.data.take values.length).length = values.length := by
    rw [List.length_take]
    omega
  have hdata := timeseries.data_setColumns [] (timeseries.data.take values.length)
    (timeseries.data.drop values.length) (by simp) htake
  rw [List.length_nil, List.nil_append] at hdata
  have hset : ∀ col ∈ List.zipWith (fun (c : Bytes × List Float) v => (c.1, [v]))
      (timeseries.data.take values.length) values, col.2 ≠ [] := by
    intro col hcol
    obtain ⟨i, hi, rfl⟩ := List.mem_iff_getElem.mp hcol
    simp
  rw [hdata, List.forall_mem_append]
  exact and_iff_right hset

/-- A walk is stopped by a stray read exactly when its leaves do not lie in the
buffer, have no columns, or leave a column that is empty. -/
theorem unstrayed_walk (timeseries : Timeseries) :
    Unstrayed (match (parseDataIntl formats buffer depth format).run
        ⟨{ timeseries with timestamps := [tval] }, start, 0⟩ with
      | .error fault _ => .error fault
      | .ok _ c => c.timeseries.getLatestData name) ↔
      (trail formats depth format start).Readable buffer.length timeseries := by
  have htreads : Treads buffer (parseDataIntl formats buffer depth format) _ :=
    parseDataIntl_treads depth format
  replace htreads := htreads ⟨{ timeseries with timestamps := [tval] }, start, 0⟩
  have hleaves : Unstrayed (storeLeaves buffer (trail formats depth format start).leaves
      { timeseries with timestamps := [tval] } 0) ↔ _ := unstrayed_storeLeaves (Nat.zero_le _)
  rw [Nat.zero_add] at hleaves
  cases hs : storeLeaves buffer (trail formats depth format start).leaves
      { timeseries with timestamps := [tval] } 0 with
  | error fault =>
    simp only [hs] at htreads
    obtain ⟨c', hrun⟩ := htreads
    rw [hrun, unstrayed_error]
    rw [hs, unstrayed_error] at hleaves
    constructor
    · intro hfault
      obtain ⟨hin, hroom⟩ := hleaves.mp hfault
      rw [storeLeaves_error hs (by simpa using hroom)] at hfault
      cases hfault
    · rintro ⟨hin, hroom, -⟩
      exact hleaves.mpr ⟨hin, hroom⟩
  | ok r =>
    obtain ⟨timeseries', index⟩ := r
    simp only [hs, unstrayed_ok, true_iff] at htreads hleaves
    obtain ⟨hin, hroom⟩ := hleaves
    obtain ⟨values, hv, -, rfl, -⟩ := (storeLeaves_eq_ok (Nat.zero_le
      ({ timeseries with timestamps := [tval] } : Timeseries).data.length)).mp hs
    cases hstop : (trail formats depth format start).stop with
    | error fault =>
      simp only [hstop] at htreads
      obtain ⟨c', hrun⟩ := htreads
      rw [hrun, unstrayed_error]
      have hfault := unstrayed_trail formats depth format start fault hstop
      refine ⟨fun _ => ⟨hin, hroom, fun stop h => ?_⟩, fun _ => hfault⟩
      cases hstop.symm.trans h
    | ok stop =>
      simp only [hstop] at htreads
      simp only [htreads]
      rw [unstrayed_getLatestData (Timeseries.timestamps_setColumns _ values),
        filled_setColumns _ (by rw [length_mapM hv]; exact hroom), length_mapM hv]
      exact ⟨fun h => ⟨hin, hroom, fun _ _ => h⟩, fun h => h.filled stop hstop⟩

theorem unstrayed_dataOutcome_of_format {p : MutelemetryParser} (hf : p.formatOf sub = .ok format) :
    Unstrayed (dataOutcome depth p buffer message sub) ↔
      ∀ timeseries, p.seriesFor sub = .ok timeseries → message + 10 ≤ buffer.length ∧
        (trail p.formats depth format ↑(message + 10)).Readable buffer.length timeseries := by
  rw [dataOutcome, unstrayed_bind]
  refine (and_iff_right (unstrayed_seriesFor hf)).trans (forall₂_congr fun timeseries _ => ?_)
  rw [unstrayed_bind, unstrayed_readUInt64, show message + 2 + 8 = message + 10 from rfl]
  refine and_congr_right fun hle => ?_
  have hread : readUInt64 buffer (message + 2) =
      .ok (.ofNat (leNat ((buffer.drop (message + 2)).take 8))) := by
    rw [readUInt64, fetch_of_le (by omega)]
    rfl
  simp only [hread, hf, ok_bind, Except.ok.injEq, forall_eq']
  exact unstrayed_walk timeseries

theorem formatOf_of_unstrayed {p : MutelemetryParser}
    (h : Unstrayed (dataOutcome depth p buffer message sub)) :
    ∃ format, p.formatOf sub = .ok format := by
  obtain ⟨hseries, h⟩ := unstrayed_bind.mp h
  cases hlookup : p.timeseries.lookup (p.seriesName sub) with
  | none =>
    rw [MutelemetryParser.seriesFor, hlookup] at hseries
    exact (unstrayed_formatOf p sub).mp (unstrayed_bind.mp hseries).1
  | some timeseries =>
    have hs : p.seriesFor sub = .ok timeseries := by rw [MutelemetryParser.seriesFor, hlookup]
    obtain ⟨hread, h⟩ := unstrayed_bind.mp (h timeseries hs)
    cases htval : readUInt64 buffer (message + 2) with
    | error fault =>
      rw [htval, unstrayed_error, readUInt64_error htval] at hread
      cases hread
    | ok tval => exact (unstrayed_formatOf p sub).mp (unstrayed_bind.mp (h tval htval)).1

theorem unstrayed_dataOutcome (p : MutelemetryParser) (buffer : Bytes) (message : Nat)
    (sub : Subscription) :
    (∀ depth, Unstrayed (dataOutcome depth p buffer message sub)) ↔
      DataReadable p buffer.length message sub := by
  constructor
  · intro h
    obtain ⟨format, hf⟩ := formatOf_of_unstrayed (h 0)
    have hwalk (depth : Nat) := (unstrayed_dataOutcome_of_format hf).mp (h depth)
    exact ⟨format, hf, fun timeseries hs =>
      ⟨(hwalk 0 timeseries hs).1, fun depth => (hwalk depth timeseries hs).2⟩⟩
  · rintro ⟨format, hf, h⟩ depth
    refine (unstrayed_dataOutcome_of_format hf).mpr fun timeseries hs => ?_
    obtain ⟨hle, hwalk⟩ := h timeseries hs
    exact ⟨hle, hwalk depth⟩

-- ---------------------------------------------------------------------------
-- Frames
-- ---------------------------------------------------------------------------

/-- A header of any type byte, and the body it gives the size of. -/
def rawFrame (type : UInt8) (body : Bytes) : Bytes :=
  (ULogMessageHeader.mk (.ofNat body.length) type).bytes ++ body

/-- The key lies in the body, and something is so of it and of what follows. -/
def KeyReadable (P : (key value : Bytes) → Prop) (body : Bytes) : Prop :=
  ∃ keyLen key value, body = keyLen :: (key ++ value) ∧ key.length = keyLen.toNat ∧ P key value

def InfoReadable : Bytes → Prop :=
  KeyReadable fun key _ => 2 ≤ (splitString (charByte ' ') key).length

def ParamReadable : Bytes → Prop :=
  KeyReadable fun key value => charByte ' ' ∈ key →
    (parameterType (key.takeWhile (· ≠ charByte ' '))).isSome → 4 ≤ value.length

/-- The flags are read up to the first unknown one; the offsets of appended data
only if there are some. -/
def FlagsReadable (body : Bytes) : Prop :=
  ∃ first, body[8]? = some first ∧ (first &&& ~~~1 = 0 → (∃ b ∈ (body.drop 9).take 7, b ≠ 0) ∨
    16 ≤ body.length ∧ (first &&& 1 ≠ 0 → 40 ≤ body.length))

section
variable {type : UInt8} {body : Bytes}

@[simp] theorem length_rawFrame : (rawFrame type body).length = 3 + body.length := by
  simp [rawFrame]

theorem headerSize_raw : headerSize (rawFrame type body) 0 = .ok (.ofNat body.length) :=
  readUInt16_at [] ([type] ++ body) _ (by simp [rawFrame, ULogMessageHeader.bytes]) rfl

theorem headerType_raw : headerType (rawFrame type body) 0 = .ok (ULogMessageType.ofCode type) := by
  have h : readUInt8 (rawFrame type body) (0 + 2) = .ok type :=
    readUInt8_at (leBytes 2 (UInt16.ofNat body.length).toNat) body _
      (by simp [rawFrame, ULogMessageHeader.bytes]) (by simp)
  rw [headerType, h]
  rfl

theorem drop_raw (i : Nat) : (rawFrame type body).drop (3 + i) = body.drop i := by
  rw [rawFrame, ← List.drop_drop, List.drop_left' (by simp)]

theorem fetch_raw (i n : Nat) : fetch (rawFrame type body) ↑(3 + i) n =
    if i + n ≤ body.length then .ok ((body.drop i).take n) else .error .outOfBounds := by
  have hlen : (rawFrame type body).length = 3 + body.length := length_rawFrame
  by_cases h : i + n ≤ body.length
  · rw [fetch_of_le (by omega), if_pos h, drop_raw]
  · have hnone : window (rawFrame type body) (3 + i) n = none := if_neg (by omega)
    rw [fetch, if_pos (by omega), Int.toNat_natCast, hnone, if_neg h]

theorem readUInt8_raw (i : Nat) (h : body[i]? = some b) :
    readUInt8 (rawFrame type body) (3 + i) = .ok b := by
  obtain ⟨hi, rfl⟩ := List.getElem?_eq_some_iff.mp h
  have hone : (body.drop i).take 1 = [body[i]] := by
    rw [List.drop_eq_getElem_cons hi]
    rfl
  rw [readUInt8, fetch_raw, if_pos (by omega), hone]
  simp [Except.map, leNat]

theorem readUInt16_raw (h : 2 ≤ body.length) :
    readUInt16 (rawFrame type body) 3 = .ok (.ofNat (leNat (body.take 2))) := by
  rw [readUInt16, show 3 = 3 + 0 from rfl, fetch_raw, if_pos (by omega)]
  rfl

theorem keyReadable_cons {P : Bytes → Bytes → Prop} : KeyReadable P (keyLen :: rest) ↔
    keyLen.toNat ≤ rest.length ∧ P (rest.take keyLen.toNat) (rest.drop keyLen.toNat) := by
  constructor
  · rintro ⟨_, key, value, heq, hlen, hP⟩
    cases heq
    rw [← hlen, List.take_left, List.drop_left]
    exact ⟨by simp, hP⟩
  · rintro ⟨hle, hP⟩
    exact ⟨keyLen, _, _, by rw [List.take_append_drop], by rw [List.length_take]; omega, hP⟩

theorem unstrayed_key {f : Bytes → Except Fault α} :
    Unstrayed (fetch (rawFrame type (keyLen :: rest)) ((3 + 1 : Nat) : Int) keyLen.toNat >>= f) ↔
      keyLen.toNat ≤ rest.length ∧ Unstrayed (f (rest.take keyLen.toNat)) := by
  rw [fetch_raw]
  by_cases h : keyLen.toNat ≤ rest.length
  · rw [if_pos (by rw [List.length_cons]; omega), ok_bind]
    simp [h]
  · rw [if_neg (by rw [List.length_cons]; omega)]
    simp [h, Fault.isStray]

theorem unstrayed_infoEntry (hlen : body.length < 2 ^ 16) :
    Unstrayed (infoEntry (rawFrame type body) 3 (.ofNat body.length)) ↔ InfoReadable body := by
  have hsize : (UInt16.ofNat body.length).toNat = body.length := UInt16.toNat_ofNat_of_lt' hlen
  rw [infoEntry, unstrayed_bind, unstrayed_readUInt8, length_rawFrame]
  cases body with
  | nil => simp [InfoReadable, KeyReadable]
  | cons keyLen rest =>
    rw [and_iff_right (by simp; omega), show 3 = 3 + 0 from rfl, readUInt8_raw 0 rfl]
    simp only [Except.ok.injEq, forall_eq', InfoReadable, keyReadable_cons]
    refine unstrayed_key.trans (and_congr_right fun hle => ?_)
    cases hsplit : splitString (charByte ' ') (rest.take keyLen.toNat) with
    | nil => simp [Fault.isStray]
    | cons first parts =>
      cases parts with
      | nil => simp [Fault.isStray]
      | cons key parts =>
        simp only [List.length_cons] at hsize ⊢
        rw [iff_true_right (by omega)]
        split
        · rw [hsize, if_neg (by omega), Nat.add_assoc, Nat.add_assoc, fetch_raw,
            if_pos (by rw [List.length_cons]; omega)]
          simp [pure_eq_ok]
        · simp [pure_eq_ok]

theorem unstrayed_readParameter :
    Unstrayed (readParameter (rawFrame type body) 3) ↔ ParamReadable body := by
  rw [readParameter, unstrayed_bind, unstrayed_readUInt8, length_rawFrame]
  cases body with
  | nil => simp [ParamReadable, KeyReadable]
  | cons keyLen rest =>
    rw [and_iff_right (by simp; omega), show 3 = 3 + 0 from rfl, readUInt8_raw 0 rfl]
    simp only [Except.ok.injEq, forall_eq', ParamReadable, keyReadable_cons]
    refine unstrayed_key.trans (and_congr_right fun hle => ?_)
    by_cases hspace : charByte ' ' ∈ rest.take keyLen.toNat
    · simp only [hspace, not_true_eq_false, if_false, true_implies]
      cases hp : parameterType ((rest.take keyLen.toNat).takeWhile (· ≠ charByte ' ')) with
      | none => simp [pure_eq_ok]
      | some valType =>
        simp only [Option.isSome_some, true_implies, unstrayed_bind, unstrayed_readUInt32,
          length_rawFrame, List.length_cons, List.length_drop]
        simp only [pure_eq_ok, unstrayed_ok, implies_true, and_true]
        omega
    · simp [hspace, pure_eq_ok]

-- A format is read from a copy of the body; its text is rejected, or its loops do not end.

theorem unstrayed_parseDigits : Unstrayed (parseDigits view arraySize) := by
  induction view generalizing arraySize with
  | nil => exact (unstrayed_error _).mpr rfl
  | cons c view ih =>
    unfold parseDigits
    split
    · exact unstrayed_ok _
    · exact ih

theorem unstrayed_parseArraySize : Unstrayed (parseArraySize fieldType) := by
  unfold parseArraySize
  split
  · exact unstrayed_ok _
  · split
    · split
      · exact (unstrayed_error _).mpr rfl
      · exact unstrayed_parseDigits
    · exact unstrayed_ok _

theorem unstrayed_parseType : Unstrayed (parseType fieldType) := by
  unfold parseType
  split
  · exact unstrayed_ok _
  · split
    · split
      · exact unstrayed_ok _
      · exact (unstrayed_error _).mpr rfl
    · exact unstrayed_ok _

theorem unstrayed_parseField : Unstrayed (parseField fieldSection) := by
  unfold parseField
  split
  · refine unstrayed_bind.mpr ⟨unstrayed_parseType, fun _ _ => ?_⟩
    exact unstrayed_bind.mpr ⟨unstrayed_parseArraySize, fun _ _ => unstrayed_ok _⟩
  · exact (unstrayed_error _).mpr rfl

theorem unstrayed_mapM {α β : Type} {f : α → Except Fault β} (h : ∀ a, Unstrayed (f a))
    (l : List α) : Unstrayed (l.mapM f) := by
  intro fault hfault
  obtain ⟨a, -, ha⟩ := mapM_eq_error hfault
  exact h a fault ha

theorem unstrayed_parseFormatText : Unstrayed (parseFormatText text) := by
  unfold parseFormatText
  split
  · refine unstrayed_bind.mpr ⟨unstrayed_mapM (fun _ => unstrayed_parseField) _, fun _ _ => ?_⟩
    exact unstrayed_ok _
  · exact unstrayed_ok _

theorem readSubscription_raw_error (hlen : body.length < 2 ^ 16)
    (h : readSubscription formats (rawFrame type body) 3 (.ofNat body.length) = .error fault) :
    fault = .outOfBounds := by
  obtain h | ⟨multiId, -, h⟩ := bind_eq_error.mp h
  · exact readUInt8_error h
  obtain h | ⟨msgId, hid, h⟩ := bind_eq_error.mp h
  · exact readUInt16_error h
  have hread : Unstrayed (readUInt16 (rawFrame type body) (3 + 1)) := by
    rw [hid]
    exact unstrayed_ok _
  have hle : 3 ≤ body.length := by
    have := unstrayed_readUInt16.mp hread
    rw [length_rawFrame] at this
    omega
  rw [UInt16.toNat_ofNat_of_lt' hlen, if_neg (by omega)] at h
  obtain h | ⟨name, -, h⟩ := bind_eq_error.mp h
  · exact fetch_error h
  · cases h

theorem unstrayed_readLog (hlen : body.length < 2 ^ 16) :
    Unstrayed (readLog (rawFrame type body) 3 (.ofNat body.length)) ↔ 9 ≤ body.length := by
  have hsize : (UInt16.ofNat body.length).toNat = body.length := UInt16.toNat_ofNat_of_lt' hlen
  rw [readLog, unstrayed_bind, unstrayed_readUInt8, length_rawFrame]
  cases body with
  | nil => simp
  | cons level rest =>
    rw [and_iff_right (by simp; omega), show 3 = 3 + 0 from rfl, readUInt8_raw 0 rfl]
    simp only [Except.ok.injEq, forall_eq', unstrayed_bind, unstrayed_readUInt64, length_rawFrame]
    refine (and_congr_right fun hle => iff_true_intro fun timestamp _ => ?_).trans ?_
    · simp only [List.length_cons] at hsize hle ⊢
      simp only [hsize, if_neg (show ¬ rest.length + 1 < 9 by omega)]
      rw [show 3 + 0 + 9 = 3 + 9 from rfl, fetch_raw, if_pos (by rw [List.length_cons]; omega)]
      simp [pure_eq_ok]
    · rw [and_true]
      omega

theorem unstrayed_readFrom (hlen : body.length < 2 ^ 16) :
    Unstrayed (readFrom (rawFrame type body) 0) ↔ 4 ≤ body.length := by
  have hframe : (rawFrame type body).length = 3 + body.length := length_rawFrame
  rw [readFrom, unstrayed_bind]
  refine (and_congr_right fun hle => iff_true_intro fun bs hbs => ?_).trans ?_
  · split
    · rename_i hmagic
      subst hmagic
      -- the first two bytes of the magic are the size
      obtain ⟨-, hwin, -⟩ := window_eq_some (fetch_eq_ok.mp hbs)
      have hsize : headerSize (rawFrame type body) 0 = .ok 19541 := by
        refine readUInt16_at [] ([111, 103, 0x01, 0x12, 0x35] ++ (rawFrame type body).drop 7) 19541
          ?_ rfl
        calc rawFrame type body = ((rawFrame type body).drop 0).take 7 ++ (rawFrame type body).drop 7 := by
              rw [List.drop_zero, List.take_append_drop]
          _ = _ := by
              rw [← hwin]
              simp [magic, leBytes]
      have hbody : body.length = 19541 := by
        rw [← UInt16.toNat_ofNat_of_lt' hlen, Except.ok.inj (headerSize_raw.symm.trans hsize)]
        rfl
      simp only [unstrayed_bind, unstrayed_readUInt8, unstrayed_readUInt64, hframe, hbody]
      simp [pure_eq_ok]
    · simp [pure_eq_ok]
  · have hfetch : Unstrayed (fetch (rawFrame type body) ((0 : Nat) : Int) 7) ↔ _ := unstrayed_fetch
    rw [and_true]
    refine hfetch.trans ?_
    rw [hframe]
    omega

theorem anySet_range' {buffer : Bytes} (h : start ≤ buffer.length) :
    anySet buffer (List.range' start n) =
      if ∃ b ∈ (buffer.drop start).take n, b ≠ 0 then .ok true
      else if start + n ≤ buffer.length then .ok false else .error .outOfBounds := by
  induction n generalizing start with
  | zero => simp [anySet, h, pure_eq_ok]
  | succ n ih =>
    rw [List.range'_succ, anySet]
    by_cases hlt : start < buffer.length
    · have hread : readUInt8 buffer start = .ok buffer[start] := by
        refine readUInt8_at (buffer.take start) (buffer.drop (start + 1)) _ ?_ ?_
        · rw [List.singleton_append, List.cons_getElem_drop_succ, List.take_append_drop]
        · rw [List.length_take]
          omega
      rw [hread, ok_bind, List.drop_eq_getElem_cons hlt, List.take_succ_cons]
      by_cases hb : buffer[start] = 0
      · simp only [hb, ne_eq, not_true_eq_false, if_false, ih hlt]
        simp [Nat.add_assoc, Nat.add_comm 1 n]
      · simp [hb, pure_eq_ok]
    · have hnone : window buffer start 1 = none := if_neg (by omega)
      rw [readUInt8, fetch, if_pos (by omega), Int.toNat_natCast, hnone,
        List.drop_eq_nil_of_le (by omega), if_neg (by simp), if_neg (by omega)]
      rfl

theorem unstrayed_flagsState :
    Unstrayed (flagsState (rawFrame type body) 0) ↔
      (ULogMessageType.ofCode type = some .B → FlagsReadable body) := by
  have hframe : (rawFrame type body).length = 3 + body.length := length_rawFrame
  rw [flagsState, headerType_raw, ok_bind]
  by_cases hB : ULogMessageType.ofCode type = some .B
  · rw [if_pos hB, unstrayed_bind, unstrayed_readUInt8, hframe]
    cases hfirst : body[8]? with
    | none =>
      have hshort := List.getElem?_eq_none_iff.mp hfirst
      refine iff_of_false (fun h => ?_) fun h => ?_
      · have := h.1
        omega
      · obtain ⟨first, h, -⟩ := h hB
        cases hfirst.symm.trans h
    | some first =>
      obtain ⟨hlt, -⟩ := List.getElem?_eq_some_iff.mp hfirst
      rw [and_iff_right (by omega), show 0 + 3 + 8 = 3 + 8 from rfl, readUInt8_raw 8 hfirst]
      simp only [FlagsReadable, hfirst, hB, true_implies, Option.some.injEq, exists_eq_left',
        Except.ok.injEq, forall_eq', List.map_add_range']
      have hany : anySet (rawFrame type body) (List.range' (3 + 8 + 1) 7) = _ :=
        anySet_range' (by omega)
      rw [show 3 + 8 + 1 = 3 + 9 from rfl, hframe, drop_raw] at hany
      by_cases hunknown : first &&& ~~~1 = 0
      · rw [if_neg (not_not.mpr hunknown), show 3 + 8 + 1 = 3 + 9 from rfl, hany]
        by_cases hset : ∃ b ∈ (body.drop 9).take 7, b ≠ 0
        · rw [if_pos hset, imp_iff_right hunknown]
          exact iff_of_true (unstrayed_ok _) (.inl hset)
        · rw [if_neg hset, imp_iff_right hunknown, or_iff_right hset]
          by_cases hlong : 16 ≤ body.length
          · rw [if_pos (by omega), ok_bind, if_neg (by simp), and_iff_right hlong]
            by_cases happended : first &&& 1 = 0
            · simp [happended, pure_eq_ok]
            · rw [if_pos happended, show 0 + 3 + 16 = 3 + 16 from rfl, unstrayed_bind,
                unstrayed_fetch, hframe]
              simp [happended, pure_eq_ok]
              omega
          · rw [if_neg (by omega)]
            simp [Fault.isStray, hlong]
      · rw [if_pos hunknown]
        simp [hunknown, pure_eq_ok]
  · rw [if_neg hB]
    simp [hB, pure_eq_ok]

end

-- ---------------------------------------------------------------------------
-- `parse`
-- ---------------------------------------------------------------------------

/-- The call has not read outside the buffer, nor looked for a header there. -/
def Clean : EStateM.Result Fault MutelemetryParser α → Prop
  | .ok _ q => q.strayed = false
  | .error fault q => fault.isStray = false ∧ q.strayed = false

/-- The `switch` of `parse`, where `parse_data_intl` may go `depth` formats deep. -/
def handleTo (depth : Nat) (state : ParseState) (buffer : Bytes) (pos : Nat) : ParseM ParseState :=
  match state, headerType buffer pos with
  | .definition, .ok (some .A) | .definitionOrData, .ok (some .A) =>
    parseAddThen (parseDataTo depth) buffer pos
  | .definitionOrData, .ok (some .D) => parseDataTo depth buffer (pos + 3)
  | _, _ => handle state buffer pos

def parseTo (depth : Nat) (buffer : Bytes) (pos : Nat) : ParseM Bool := do
  let newState ← handleTo depth (← get).state buffer pos
  modify fun p => { p with state := newState }
  return newState ≠ .invalid

/-- However deep its recursion goes, `parse` reads this buffer within its bytes,
and its vectors within theirs. -/
def InBounds (p : MutelemetryParser) (buffer : Bytes) : Prop :=
  ∀ depth, Clean ((parseTo depth buffer 0).run { p with strayed := false })

theorem run_parseTo (depth : Nat) (buffer : Bytes) (pos : Nat) (p : MutelemetryParser) :
    (parseTo depth buffer pos).run p = settle ((handleTo depth p.state buffer pos).run p) := by
  simp only [parseTo, run_seq, EStateM.run_get]
  cases (handleTo depth p.state buffer pos).run p with
  | ok | error => rfl

theorem run_parseAddData_eq (buffer : Bytes) (pos : Nat) (p : MutelemetryParser) :
    (parseAddData buffer pos).run p =
      (parseAddThen (parseDataTo p.formats.keys.length) buffer pos).run p := by
  cases hsize : headerSize buffer pos with
  | error fault =>
    rw [parseAddData, parseAddThen, parseAddThen, hsize]
    rfl
  | ok size =>
    rw [run_parseAddData hsize, run_parseAddThen hsize]
    cases readSubscription p.formats buffer (pos + 3) size with
    | error => rfl
    | ok sub =>
      simp only [behind]
      cases headerType buffer (pos + 3 + size.toNat) with
      | error => rfl
      | ok type =>
        by_cases htype : type = some .D
        · subst htype
          rfl
        · simp only [decide_eq_false htype]

theorem run_handle (state : ParseState) (buffer : Bytes) (pos : Nat) (p : MutelemetryParser) :
    (handle state buffer pos).run p =
      (handleTo p.formats.keys.length state buffer pos).run p := by
  unfold handleTo
  split
  · rename_i ht
    rw [handle, parseDefinition, run_seq, ht]
    exact run_parseAddData_eq buffer pos p
  · rename_i ht
    rw [handle, parseDataSection, run_seq, ht]
    exact run_parseAddData_eq buffer pos p
  · rename_i ht
    rw [handle, parseDataSection, run_seq, ht]
    rfl
  · rfl

/-- `parse` goes as deep as there are formats. -/
theorem run_parse_eq (buffer : Bytes) (pos : Nat) (p : MutelemetryParser) :
    (parse buffer pos).run p = (parseTo p.formats.keys.length buffer pos).run p := by
  rw [run_parse, run_parseTo, run_handle]

theorem InBounds.parse {p : MutelemetryParser} (h : InBounds p buffer) :
    Clean ((parse buffer 0).run { p with strayed := false }) := by
  rw [run_parse_eq]
  exact h p.formats.keys.length

theorem handleTo_definition (h : headerType buffer pos ≠ .ok (some .A)) :
    handleTo depth .definition buffer pos = parseDefinition buffer pos := by
  unfold handleTo
  split
  · exact absurd ‹_› h
  · rename_i hs _
    cases hs
  · rename_i hs _
    cases hs
  · rfl

theorem handleTo_data (hA : headerType buffer pos ≠ .ok (some .A))
    (hD : headerType buffer pos ≠ .ok (some .D)) :
    handleTo depth .definitionOrData buffer pos = parseDataSection buffer pos := by
  unfold handleTo
  split
  · rename_i hs _
    cases hs
  · exact absurd ‹_› hA
  · exact absurd ‹_› hD
  · rfl

/-- What makes a frame readable in a state. Behind an A message with nothing
after it a header is looked for. -/
def Readable (p : MutelemetryParser) (type : UInt8) (body : Bytes) : Prop :=
  match p.state, ULogMessageType.ofCode type with
  | .header, _ => 4 ≤ body.length
  | .flags, some .B => FlagsReadable body
  | .definition, some .I | .definitionOrData, some .I => InfoReadable body
  | .definition, some .P | .definitionOrData, some .P => ParamReadable body
  | .definition, some .A | .definitionOrData, some .A => False
  | .definitionOrData, some .D => 2 ≤ body.length ∧
    ∀ sub, p.subscriptions.lookup (.ofNat (leNat (body.take 2))) = some sub →
      DataReadable p (3 + body.length) 3 sub
  | .definitionOrData, some .L => 9 ≤ body.length
  | .definitionOrData, some .R => 2 ≤ body.length
  | _, _ => True

@[simp] theorem clean_ok (a : α) (q : MutelemetryParser) :
    Clean (.ok a q) ↔ q.strayed = false := Iff.rfl

@[simp] theorem clean_error (fault : Fault) (q : MutelemetryParser) :
    Clean (.error fault q : EStateM.Result Fault MutelemetryParser α) ↔
      fault.isStray = false ∧ q.strayed = false := Iff.rfl

@[simp] theorem clean_settle {r : EStateM.Result Fault MutelemetryParser ParseState} :
    Clean (settle r) ↔ Clean r := by
  cases r with
  | ok | error => rfl

section
variable {p : MutelemetryParser} {type : UInt8} {body : Bytes}

/-- Behind the A message of a frame there is no header to look for. -/
theorem not_clean_parseAddThen {data : Bytes → Nat → ParseM ParseState} (hlen : body.length < 2 ^ 16) :
    ¬ Clean ((parseAddThen data (rawFrame type body) 0).run p) := by
  rw [run_parseAddThen headerSize_raw]
  cases hsub : readSubscription p.formats (rawFrame type body) (0 + 3) (.ofNat body.length) with
  | error fault =>
    rw [readSubscription_raw_error hlen hsub]
    simp [Fault.isStray]
  | ok sub =>
    have hpos : (0 + 3 + body.length) + 2 = 3 + (body.length + 2) := by omega
    have hnone : headerType (rawFrame type body) (0 + 3 + body.length) = .error .outOfBounds := by
      rw [headerType, readUInt8, hpos, fetch_raw, if_neg (by omega)]
      rfl
    simp only [UInt16.toNat_ofNat_of_lt' hlen, behind, hnone]
    simp

variable (hp : p.strayed = false)
include hp

theorem clean_lift {x : Except Fault α} {f : α → ParseM β} :
    Clean ((lift x >>= f).run p) ↔ Unstrayed x ∧ ∀ a, x = .ok a → Clean ((f a).run p) := by
  rw [run_seq, run_lift]
  cases x with
  | ok a => simp
  | error fault => simp [hp]

theorem clean_assertState : Clean ((assertState state expected).run p) := by
  unfold assertState
  split
  · exact hp
  · exact ⟨rfl, hp⟩

theorem clean_parseHeader (hlen : body.length < 2 ^ 16) :
    Clean ((parseHeader (rawFrame type body) 0 >>= (assertState · .flags)).run p) ↔
      4 ≤ body.length := by
  rw [parseHeader, bind_assoc, clean_lift hp, unstrayed_readFrom hlen]
  refine and_iff_left fun timestamp _ => ?_
  cases timestamp with
  | none => exact ⟨rfl, hp⟩
  | some timestamp => exact hp

theorem clean_parseFlags :
    Clean ((parseFlags (rawFrame type body) 0 >>= (assertState · .definition)).run p) ↔
      (ULogMessageType.ofCode type = some .B → FlagsReadable body) := by
  rw [parseFlags, clean_lift hp, unstrayed_flagsState]
  exact and_iff_left fun state _ => clean_assertState hp

theorem clean_parseInfo (hlen : body.length < 2 ^ 16) :
    Clean ((do parseInfo (rawFrame type body) 3 (← lift (headerSize (rawFrame type body) 0))).run p) ↔
      InfoReadable body := by
  rw [headerSize_raw, clean_lift hp]
  simp only [unstrayed_ok, true_and, Except.ok.injEq, forall_eq']
  rw [parseInfo, clean_lift hp, unstrayed_infoEntry hlen]
  exact and_iff_left fun entry _ => hp

theorem clean_parseFormat (hlen : body.length < 2 ^ 16) : Clean
    ((do parseFormat (rawFrame type body) 3 (← lift (headerSize (rawFrame type body) 0))).run p) := by
  rw [headerSize_raw, clean_lift hp]
  simp only [unstrayed_ok, true_and, Except.ok.injEq, forall_eq']
  rw [parseFormat, clean_lift hp, UInt16.toNat_ofNat_of_lt' hlen, unstrayed_fetch, length_rawFrame]
  refine ⟨Nat.le_refl _, fun text _ => ?_⟩
  refine (clean_lift hp).mpr ⟨unstrayed_parseFormatText, fun format _ => ?_⟩
  cases format with
  | none => exact hp
  | some format => exact hp

theorem clean_parseParam :
    Clean ((parseParam (rawFrame type body) 3).run p) ↔ ParamReadable body := by
  rw [parseParam, clean_lift hp, unstrayed_readParameter]
  refine and_iff_left fun param _ => ?_
  cases param with
  | none => exact hp
  | some param => exact hp

theorem clean_parseLogged (hlen : body.length < 2 ^ 16) :
    Clean ((do parseLogged (rawFrame type body) 3 (← lift (headerSize (rawFrame type body) 0))).run p) ↔
      9 ≤ body.length := by
  rw [headerSize_raw, clean_lift hp]
  simp only [unstrayed_ok, true_and, Except.ok.injEq, forall_eq']
  rw [parseLogged, clean_lift hp, unstrayed_readLog hlen]
  exact and_iff_left fun msgLog _ => hp

theorem clean_parseRemove :
    Clean ((parseRemove (rawFrame type body) 3).run p) ↔ 2 ≤ body.length := by
  rw [parseRemove, clean_lift hp, unstrayed_readUInt16, length_rawFrame]
  refine Iff.trans (and_iff_left fun msgId _ => hp) ?_
  omega

theorem clean_parseDataTo : (∀ depth, Clean ((parseDataTo depth (rawFrame type body) 3).run p)) ↔
    2 ≤ body.length ∧ ∀ sub, p.subscriptions.lookup (.ofNat (leNat (body.take 2))) = some sub →
      DataReadable p (3 + body.length) 3 sub := by
  by_cases hle : 2 ≤ body.length
  · have hid : readUInt16 (rawFrame type body) 3 = _ := readUInt16_raw hle
    rw [and_iff_right hle]
    cases hsub : p.subscriptions.lookup (.ofNat (leNat (body.take 2))) with
    | none => simpa [run_parseDataTo_none _ hid hsub] using hp
    | some sub =>
      have hlen : (rawFrame type body).length = 3 + body.length := length_rawFrame
      simp only [Option.some.injEq, forall_eq', ← hlen, ← unstrayed_dataOutcome]
      refine forall_congr' fun depth => ?_
      obtain ⟨q, hq, hrun⟩ := run_parseDataTo_outcome depth hid hsub
      rw [hrun]
      cases dataOutcome depth p (rawFrame type body) 3 sub with
      | ok data => simpa using hq.trans hp
      | error fault => simp [hq.trans hp]
  · refine iff_of_false (fun h => ?_) fun h => hle h.1
    have hread := h 0
    rw [parseDataTo, clean_lift hp, unstrayed_readUInt16, length_rawFrame] at hread
    omega

theorem clean_parseDefinition (hlen : body.length < 2 ^ 16) (hs : p.state = .definition)
    (hA : ULogMessageType.ofCode type ≠ some .A) :
    Clean ((parseDefinition (rawFrame type body) 0).run p) ↔ Readable p type body := by
  rw [parseDefinition, clean_lift hp, headerType_raw, Readable, hs]
  refine (and_iff_right (unstrayed_ok _)).trans ?_
  simp only [Except.ok.injEq, forall_eq']
  cases hcode : ULogMessageType.ofCode type with
  | none => exact iff_of_true hp trivial
  | some t =>
    cases t with
    | I => exact clean_parseInfo hp hlen
    | F => exact iff_of_true (clean_parseFormat hp hlen) trivial
    | P => exact clean_parseParam hp
    | A => exact absurd hcode hA
    | M | B | D | L | S | O | R => exact iff_of_true hp trivial

theorem clean_parseDataSection (hlen : body.length < 2 ^ 16) (hs : p.state = .definitionOrData)
    (hA : ULogMessageType.ofCode type ≠ some .A) (hD : ULogMessageType.ofCode type ≠ some .D) :
    Clean ((parseDataSection (rawFrame type body) 0).run p) ↔ Readable p type body := by
  rw [parseDataSection, clean_lift hp, headerType_raw, Readable, hs]
  refine (and_iff_right (unstrayed_ok _)).trans ?_
  simp only [Except.ok.injEq, forall_eq']
  cases hcode : ULogMessageType.ofCode type with
  | none => exact iff_of_true hp trivial
  | some t =>
    cases t with
    | I => exact clean_parseInfo hp hlen
    | P => exact clean_parseParam hp
    | A => exact absurd hcode hA
    | D => exact absurd hcode hD
    | L => exact clean_parseLogged hp hlen
    | R => exact clean_parseRemove hp
    | M | B | F | S | O => exact iff_of_true hp trivial

theorem clean_handleTo (hlen : body.length < 2 ^ 16) :
    (∀ depth, Clean ((handleTo depth p.state (rawFrame type body) 0).run p)) ↔
      Readable p type body := by
  have hne {t : ULogMessageType} (h : ULogMessageType.ofCode type ≠ some t) :
      headerType (rawFrame type body) 0 ≠ .ok (some t) := by
    rw [headerType_raw]
    simpa using h
  cases hs : p.state with
  | header =>
    rw [Readable, hs]
    exact (forall_const Nat).trans (clean_parseHeader hp hlen)
  | flags =>
    rw [Readable, hs]
    refine (forall_const Nat).trans ((clean_parseFlags hp).trans ?_)
    match ULogMessageType.ofCode type with
    | some .B => simp
    | some .I | some .M | some .F | some .P | some .A | some .D | some .L | some .S | some .O
    | some .R | none => simp
  | definition =>
    by_cases hA : ULogMessageType.ofCode type = some .A
    · rw [Readable, hs, hA]
      refine iff_of_false (fun h => ?_) not_false
      have hclean := h 0
      simp only [handleTo, headerType_raw, hA] at hclean
      exact not_clean_parseAddThen hlen hclean
    · simp only [handleTo_definition (hne hA), forall_const]
      exact clean_parseDefinition hp hlen hs hA
  | definitionOrData =>
    by_cases hA : ULogMessageType.ofCode type = some .A
    · rw [Readable, hs, hA]
      refine iff_of_false (fun h => ?_) not_false
      have hclean := h 0
      simp only [handleTo, headerType_raw, hA] at hclean
      exact not_clean_parseAddThen hlen hclean
    by_cases hD : ULogMessageType.ofCode type = some .D
    · simp only [handleTo, headerType_raw, Readable, hs, hD]
      exact clean_parseDataTo hp
    · simp only [handleTo_data (hne hA) (hne hD), forall_const]
      exact clean_parseDataSection hp hlen hs hA hD
  | invalid =>
    rw [Readable, hs]
    exact iff_of_true (fun _ => hp) trivial

end

/-- A frame is read within its bytes exactly when it is readable. -/
theorem inBounds_iff (p : MutelemetryParser) (type : UInt8) (body : Bytes)
    (hlen : body.length < 2 ^ 16) : InBounds p (rawFrame type body) ↔ Readable p type body := by
  have hp : ({ p with strayed := false } : MutelemetryParser).strayed = false := rfl
  simp only [InBounds, run_parseTo, clean_settle]
  exact clean_handleTo hp hlen

theorem inBounds_iff_info :
    InBounds { MutelemetryParser.new with state := .definition }
      (rawFrame (charByte 'I') (9 :: ascii "char[1] k!")) :=
  (inBounds_iff _ _ _ (by decide)).mpr
    ⟨9, ascii "char[1] k", ascii "!", by decide, by decide, by decide⟩

/-- The length of a key may be more than what follows it. -/
theorem keyLen_beyond_frame : ¬ ∀ p, Transition.Reachable accept .new p → ∀ type body,
    body.length < 2 ^ 16 → InBounds p (rawFrame type body) := by
  intro h
  have hrun : (Transition.run accept .new
      [(fileHeader 0, 0), (frame .B (List.replicate 40 0), 0)]).map (·.state) =
      some .definition := by decide +kernel
  obtain ⟨p, hp, hs⟩ := Option.map_eq_some_iff.mp hrun
  have hin := h p ⟨_, hp⟩ (charByte 'I') [5] (by decide)
  simp only [InBounds, run_parseTo, clean_settle] at hin
  have hread : Readable p (charByte 'I') [5] :=
    (clean_handleTo (p := { p with strayed := false }) rfl (by decide)).mp hin
  rw [Readable, hs] at hread
  obtain ⟨keyLen, key, value, heq, hkey, -⟩ := hread
  obtain ⟨rfl, hnil⟩ := List.cons_eq_cons.mp heq
  obtain ⟨rfl, -⟩ := List.append_eq_nil_iff.mp hnil.symm
  cases hkey

end Mutelemetry.Parse
