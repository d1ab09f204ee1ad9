import Mutelemetry.Parse.Layout

/-!
# Decoding

`parse_data_intl` reads the leaves of the layout one after the other, each into
the next column. So it returns exactly when the format has a layout, the leaves
lie in the buffer and there are columns enough.
-/

namespace Mutelemetry.Parse

open ByteString Stateful

-- ---------------------------------------------------------------------------
-- Leaves
-- ---------------------------------------------------------------------------

def readLeaf (buffer : Bytes) (leaf : Leaf) : Except Fault Float :=
  leaf.type.toDouble <$> fetch buffer leaf.offset leaf.type.sizeOf

def storeLeaves (buffer : Bytes) :
    List Leaf → Timeseries → (index : Nat) → Except Fault (Timeseries × Nat)
  | [], timeseries, index => .ok (timeseries, index)
  | leaf :: leaves, timeseries, index => do
    let value ← readLeaf buffer leaf
    if index < timeseries.data.length then
      storeLeaves buffer leaves (timeseries.setColumn index value) (index + 1)
    else .error .vectorIndex

theorem storeLeaves_append : storeLeaves buffer (leaves ++ leaves') timeseries index =
    storeLeaves buffer leaves timeseries index >>= fun r => storeLeaves buffer leaves' r.1 r.2 := by
  induction leaves generalizing timeseries index with
  | nil => rfl
  | cons leaf leaves ih =>
    simp only [List.cons_append, storeLeaves]
    cases readLeaf buffer leaf with
    | error => rfl
    | ok value =>
      simp only [ok_bind]
      split
      · exact ih
      · rfl

-- ---------------------------------------------------------------------------
-- The walk
-- ---------------------------------------------------------------------------

/-- `x` reads and stores the leaves that `place` gives for where it starts. -/
def Follows (buffer : Bytes) (x : Decode Unit) (place : Placement) : Prop :=
  ∀ c : Cursor, match place c.message with
    | .error _ => ∃ fault c', x.run c = .error fault c'
    | .ok (leaves, stop) => match storeLeaves buffer leaves c.timeseries c.index with
      | .error fault => ∃ c', x.run c = .error fault c'
      | .ok (timeseries, index) => x.run c = .ok () ⟨timeseries, stop, index⟩

theorem Follows.seq (hx : Follows buffer x place) (hy : Follows buffer y place') :
    Follows buffer (x >>= fun _ => y) (place.andThen place') := by
  intro c
  have hx := hx c
  unfold Placement.andThen
  cases hp : place c.message with
  | error =>
    simp only [hp] at hx
    obtain ⟨fault, c', hrun⟩ := hx
    exact ⟨fault, c', run_seq_error hrun _⟩
  | ok r =>
    obtain ⟨leaves, mid⟩ := r
    simp only [hp] at hx
    simp only [ok_bind]
    cases hs : storeLeaves buffer leaves c.timeseries c.index with
    | error fault =>
      simp only [hs] at hx
      obtain ⟨c', hrun⟩ := hx
      cases hp' : place' mid with
      | error => exact ⟨fault, c', run_seq_error hrun _⟩
      | ok r' =>
        simp only [ok_bind, pure_eq_ok, storeLeaves_append, hs, error_bind]
        exact ⟨c', run_seq_error hrun _⟩
    | ok r =>
      obtain ⟨timeseries, index⟩ := r
      simp only [hs] at hx
      have hy := hy ⟨timeseries, mid, index⟩
      rw [run_seq_ok hx]
      cases hp' : place' mid with
      | error =>
        simp only [hp'] at hy
        exact hy
      | ok r' =>
        simp only [hp'] at hy
        simp only [ok_bind, pure_eq_ok, storeLeaves_append, hs]
        exact hy

theorem Follows.loop {step : Slot → Decode Unit} {place : Slot → Placement}
    (h : ∀ slot, Follows buffer (step slot) (place slot)) (slots : List Slot) :
    Follows buffer (slots.forM step) (inOrder place slots) := by
  induction slots with
  | nil => exact fun c => rfl
  | cons slot slots ih => exact (h slot).seq ih

theorem follows_skip (n : Int) : Follows buffer (skip n) fun start => pure ([], start + n) :=
  fun _ => rfl

theorem Follows.behind (h : Follows buffer x place) (n : Int) :
    Follows buffer (skip n >>= fun _ => x) fun start => place (start + n) := by
  intro c
  rw [run_seq_ok (show (skip n).run c = .ok () { c with message := c.message + n } from rfl)]
  exact h { c with message := c.message + n }

theorem follows_value (type : FormatType) (path : Bytes) :
    Follows buffer (readValue buffer type >>= storeValue) fun start =>
      pure ([⟨path, start, type⟩], start + type.sizeOf) := by
  intro c
  simp only [pure_eq_ok, storeLeaves, readLeaf]
  cases hf : fetch buffer c.message type.sizeOf with
  | error fault =>
    refine ⟨c, run_seq_error ?_ _⟩
    simp only [readValue, EStateM.run_bind, EStateM.run_get, hf]
    rfl
  | ok bs =>
    have hread : (readValue buffer type).run c =
        .ok (type.toDouble bs) { c with message := c.message + type.sizeOf } := by
      simp only [readValue, EStateM.run_bind, EStateM.run_get, hf]
      rfl
    rw [run_seq_ok hread]
    simp only [map_ok, ok_bind, storeValue, EStateM.run_bind, EStateM.run_get]
    split
    · rename_i hs
      split at hs
      · cases hs
      · cases hs
        rename_i h
        exact ⟨_, by rw [if_neg h]; rfl⟩
    · rename_i hs
      split at hs
      · cases hs
        rename_i h
        rw [if_pos h]
        rfl
      · cases hs

def slotRead (formats : Formats) (buffer : Bytes) (child : Format → Decode Unit) :
    Slot → Decode Unit
  | .padding size => skip size
  | .item field _ =>
    if field.type = .other then
      match formats.lookup field.otherTypeId with
      | none => throw .outOfRange
      | some format => do
        skip 8
        child format
    else do
      let value ← readValue buffer field.type
      storeValue value

theorem forM_flatMap (f : β → Decode PUnit) (g : α → List β) (l : List α) :
    (l.flatMap g).forM f = l.forM fun a => (g a).forM f := by
  induction l with
  | nil => rfl
  | cons a l ih =>
    simp only [List.forM_eq_forM] at ih ⊢
    rw [List.flatMap_cons, List.forM_append, List.forM_cons, ih]

theorem parseDataIntl_succ : parseDataIntl formats buffer (depth + 1) format =
    format.slots.forM (slotRead formats buffer (parseDataIntl formats buffer depth)) := by
  rw [Format.slots, forM_flatMap, parseDataIntl]
  congr 1
  funext field
  unfold Field.slots
  split
  · simp [slotRead]
  · simp only [List.forM_eq_forM, List.forM_map]
    rfl

/-- `parse_data_intl` reads the leaves of the layout, whatever their paths. -/
theorem parseDataIntl_follows (depth : Nat) (format : Format) (pre : Bytes) :
    Follows buffer (parseDataIntl formats buffer depth format) (layout formats depth format pre) := by
  induction depth generalizing format pre with
  | zero => exact fun c => ⟨.diverges, c, rfl⟩
  | succ depth ih =>
    rw [parseDataIntl_succ]
    refine Follows.loop (fun slot => ?_) _
    cases slot with
    | padding size => exact follows_skip size
    | item field i =>
      simp only [slotRead]
      split
      · rename_i ht
        cases hf : formats.lookup field.otherTypeId with
        | none =>
          intro c
          simp only [placeSlot, if_pos ht, hf]
          exact ⟨.outOfRange, c, rfl⟩
        | some child =>
          intro c
          simp only [placeSlot, if_pos ht, hf]
          exact (ih child (pre ++ field.path i)).behind 8 c
      · rename_i ht
        intro c
        simp only [placeSlot, if_neg ht]
        exact follows_value field.type (pre ++ field.path i) c

-- ---------------------------------------------------------------------------
-- Columns
-- ---------------------------------------------------------------------------

theorem fetch_eq_ok {buffer bs : Bytes} {pos : Nat} :
    fetch buffer pos n = .ok bs ↔ window buffer pos n = some bs := by
  rw [fetch, if_pos (by omega), Int.toNat_natCast]
  cases window buffer pos n with
  | none | some => simp

theorem fetch_of_le {buffer : Bytes} {pos : Nat} (h : pos + n ≤ buffer.length) :
    fetch buffer pos n = .ok ((buffer.drop pos).take n) :=
  fetch_eq_ok.mpr (window_isSome h)

theorem fetch_error (h : fetch buffer message n = .error fault) : fault = .outOfBounds := by
  unfold fetch at h
  split at h <;> cases h
  rfl

theorem readLeaf_error (h : readLeaf buffer leaf = .error fault) : fault = .outOfBounds := by
  unfold readLeaf at h
  cases hf : fetch buffer leaf.offset leaf.type.sizeOf with
  | error f =>
    rw [hf] at h
    cases h
    exact fetch_error hf
  | ok bs =>
    rw [hf] at h
    cases h

namespace Timeseries

def setColumns (timeseries : Timeseries) (index : Nat) : List Float → Timeseries
  | [] => timeseries
  | value :: values => (timeseries.setColumn index value).setColumns (index + 1) values

@[simp] theorem length_setColumn (timeseries : Timeseries) :
    (timeseries.setColumn index value).data.length = timeseries.data.length := by
  simp [setColumn]

@[simp] theorem length_setColumns (timeseries : Timeseries) (values : List Float) :
    (timeseries.setColumns index values).data.length = timeseries.data.length := by
  induction values generalizing timeseries index with
  | nil => rfl
  | cons value values ih => rw [setColumns, ih, length_setColumn]

@[simp] theorem paths_setColumn (timeseries : Timeseries) :
    (timeseries.setColumn index value).data.map Prod.fst = timeseries.data.map Prod.fst := by
  refine List.ext_getElem (by simp) fun i hi hi' => ?_
  simp only [setColumn, List.getElem_map, List.getElem_modify]
  split <;> rfl

@[simp] theorem paths_setColumns (timeseries : Timeseries) (values : List Float) :
    (timeseries.setColumns index values).data.map Prod.fst = timeseries.data.map Prod.fst := by
  induction values generalizing timeseries index with
  | nil => rfl
  | cons value values ih => rw [setColumns, ih, paths_setColumn]

@[simp] theorem timestamps_setColumns (timeseries : Timeseries) (values : List Float) :
    (timeseries.setColumns index values).timestamps = timeseries.timestamps := by
  induction values generalizing timeseries index with
  | nil => rfl
  | cons value values ih => exact ih _

theorem modify_append (pre : List α) (a : α) (post : List α) (f : α → α) :
    (pre ++ a :: post).modify pre.length f = pre ++ f a :: post := by
  induction pre with
  | nil => rfl
  | cons b pre ih => rw [List.cons_append, List.length_cons, List.modify_succ_cons, ih]; rfl

theorem data_setColumns (timeseries : Timeseries) (pre cols post : List (Bytes × List Float))
    (hdata : timeseries.data = pre ++ (cols ++ post)) (hlen : cols.length = values.length) :
    (timeseries.setColumns pre.length values).data =
      pre ++ (List.zipWith (fun c v => (c.1, [v])) cols values ++ post) := by
  induction values generalizing timeseries pre cols with
  | nil =>
    rw [List.length_eq_zero_iff.mp hlen] at hdata
    simpa [setColumns] using hdata
  | cons value values ih =>
    cases cols with
    | nil => cases hlen
    | cons c cols =>
      have hset : (timeseries.setColumn pre.length value).data =
          (pre ++ [(c.1, [value])]) ++ (cols ++ post) := by
        simp only [setColumn, hdata, List.cons_append, modify_append]
        simp
      have h := ih (timeseries.setColumn pre.length value) _ cols hset (by simpa using hlen)
      rw [List.length_append, List.length_singleton] at h
      rw [setColumns, h]
      simp

theorem data_setColumns_all (timeseries : Timeseries) (h : timeseries.data.length = values.length) :
    (timeseries.setColumns 0 values).data =
      List.zipWith (fun c v => (c.1, [v])) timeseries.data values := by
  simpa using timeseries.data_setColumns [] timeseries.data [] (by simp) h

end Timeseries

theorem Timeseries.setColumns_setColumns (timeseries : Timeseries)
    (h : values.length ≤ timeseries.data.length) :
    (timeseries.setColumns 0 values).setColumns 0 values = timeseries.setColumns 0 values := by
  have hlen : (timeseries.data.take values.length).length = values.length := by
    rw [List.length_take]
    omega
  have hset : ∀ (cols : List (Bytes × List Float)) (vs : List Float),
      List.zipWith (fun c v => (c.1, [v])) (List.zipWith (fun c v => (c.1, [v])) cols vs) vs =
        List.zipWith (fun c v => (c.1, [v])) cols vs := by
    intro cols vs
    induction cols generalizing vs with
    | nil => rfl
    | cons c cols ih =>
      cases vs with
      | nil => rfl
      | cons v vs => simp [ih]
  have honce := timeseries.data_setColumns [] (timeseries.data.take values.length)
    (timeseries.data.drop values.length) (by simp) hlen
  have hlen' : (List.zipWith (fun c v => (c.1, [v])) (timeseries.data.take values.length)
      values).length = values.length := by
    rw [List.length_zipWith, hlen, Nat.min_self]
  have htwice := (timeseries.setColumns 0 values).data_setColumns [] _ _ honce hlen'
  have hdata : ((timeseries.setColumns 0 values).setColumns 0 values).data =
      (timeseries.setColumns 0 values).data := by
    rw [List.length_nil, hset] at htwice
    exact htwice.trans honce.symm
  have htime : ((timeseries.setColumns 0 values).setColumns 0 values).timestamps =
      (timeseries.setColumns 0 values).timestamps := by simp
  calc (timeseries.setColumns 0 values).setColumns 0 values
      = ⟨((timeseries.setColumns 0 values).setColumns 0 values).timestamps,
          ((timeseries.setColumns 0 values).setColumns 0 values).data⟩ := rfl
    _ = timeseries.setColumns 0 values := by rw [htime, hdata]

theorem storeLeaves_eq_ok (hi : index ≤ timeseries.data.length) :
    storeLeaves buffer leaves timeseries index = .ok (timeseries', index') ↔
      ∃ values, leaves.mapM (readLeaf buffer) = .ok values ∧
        index + leaves.length ≤ timeseries.data.length ∧
        timeseries' = timeseries.setColumns index values ∧ index' = index + leaves.length := by
  induction leaves generalizing timeseries index with
  | nil =>
    simp only [storeLeaves, List.mapM_nil, pure_eq_ok, List.length_nil]
    constructor
    · intro h
      cases h
      exact ⟨[], rfl, hi, rfl, rfl⟩
    · rintro ⟨values, hv, -, rfl, rfl⟩
      cases hv
      rfl
  | cons leaf leaves ih =>
    simp only [storeLeaves, List.mapM_cons, List.length_cons]
    cases readLeaf buffer leaf with
    | error fault => simp
    | ok value =>
      simp only [ok_bind, bind_eq_ok, pure_eq_ok]
      by_cases hlt : index < timeseries.data.length
      · rw [if_pos hlt, ih (by rw [Timeseries.length_setColumn]; omega)]
        simp only [Timeseries.length_setColumn]
        constructor
        · rintro ⟨values, hv, hroom, rfl, rfl⟩
          exact ⟨value :: values, ⟨values, hv, rfl⟩, by omega, rfl, by omega⟩
        · rintro ⟨_, ⟨values, hv, hvs⟩, hroom, rfl, rfl⟩
          cases hvs
          exact ⟨values, hv, by omega, rfl, by omega⟩
      · rw [if_neg hlt]
        constructor
        · intro h
          cases h
        · rintro ⟨_, -, hroom, -⟩
          omega

theorem storeLeaves_error (h : storeLeaves buffer leaves timeseries index = .error fault)
    (hroom : index + leaves.length ≤ timeseries.data.length) : fault = .outOfBounds := by
  induction leaves generalizing timeseries index with
  | nil => cases h
  | cons leaf leaves ih =>
    rw [List.length_cons] at hroom
    simp only [storeLeaves] at h
    cases hr : readLeaf buffer leaf with
    | error f =>
      rw [hr] at h
      cases h
      exact readLeaf_error hr
    | ok value =>
      rw [hr, ok_bind, if_pos (by omega)] at h
      exact ih h (by rw [Timeseries.length_setColumn]; omega)

/-- `parse_data_intl` on a whole message. -/
theorem run_parseDataIntl_eq_ok :
    (parseDataIntl formats buffer depth format).run ⟨timeseries, message, 0⟩ = .ok () c ↔
      ∃ leaves stop values, layout formats depth format [] message = .ok (leaves, stop) ∧
        leaves.mapM (readLeaf buffer) = .ok values ∧
        leaves.length ≤ timeseries.data.length ∧
        c = ⟨timeseries.setColumns 0 values, stop, leaves.length⟩ := by
  have h : Follows buffer (parseDataIntl formats buffer depth format) _ :=
    parseDataIntl_follows depth format []
  replace h := h ⟨timeseries, message, 0⟩
  cases hl : layout formats depth format [] message with
  | error fault =>
    simp only [hl] at h
    obtain ⟨fault, c', hrun⟩ := h
    simp [hrun]
  | ok r =>
    obtain ⟨leaves, stop⟩ := r
    simp only [hl] at h
    cases hs : storeLeaves buffer leaves timeseries 0 with
    | error fault =>
      simp only [hs] at h
      obtain ⟨c', hrun⟩ := h
      rw [hrun]
      refine ⟨fun h => (nomatch h), ?_⟩
      rintro ⟨ls, st, values, heq, hv, hroom, rfl⟩
      cases heq
      have hok := (storeLeaves_eq_ok (Nat.zero_le timeseries.data.length)).mpr
        ⟨values, hv, by simpa using hroom, rfl, rfl⟩
      rw [hs] at hok
      cases hok
    | ok r =>
      obtain ⟨timeseries', index⟩ := r
      simp only [hs] at h
      obtain ⟨values, hv, hroom, rfl, rfl⟩ :=
        (storeLeaves_eq_ok (Nat.zero_le timeseries.data.length)).mp hs
      rw [Nat.zero_add] at hroom h
      rw [h]
      constructor
      · intro heq
        cases heq
        exact ⟨leaves, stop, values, rfl, hv, hroom, rfl⟩
      · rintro ⟨ls, st, vs, heq, hv', -, rfl⟩
        cases heq
        cases hv.symm.trans hv'
        rfl

theorem run_parseDataIntl_error (hl : layout formats depth format [] message = .ok (leaves, stop))
    (hroom : leaves.length ≤ timeseries.data.length)
    (h : (parseDataIntl formats buffer depth format).run ⟨timeseries, message, 0⟩ =
      .error fault c) : fault = .outOfBounds := by
  have hf : Follows buffer (parseDataIntl formats buffer depth format) _ :=
    parseDataIntl_follows depth format []
  replace hf := hf ⟨timeseries, message, 0⟩
  simp only [hl] at hf
  cases hs : storeLeaves buffer leaves timeseries 0 with
  | error f =>
    simp only [hs] at hf
    obtain ⟨c', hrun⟩ := hf
    cases hrun.symm.trans h
    exact storeLeaves_error hs (by simpa using hroom)
  | ok r =>
    simp only [hs] at hf
    cases hf.symm.trans h

-- ---------------------------------------------------------------------------
-- The latest data
-- ---------------------------------------------------------------------------

theorem length_mapM {f : α → Except ε β} {l : List α} (h : l.mapM f = .ok bs) :
    bs.length = l.length := by
  induction l generalizing bs with
  | nil =>
    cases h
    rfl
  | cons a l ih =>
    simp only [List.mapM_cons, bind_eq_ok, pure_eq_ok] at h
    obtain ⟨b, -, bs', hbs, heq⟩ := h
    cases heq
    rw [List.length_cons, List.length_cons, ih hbs]

theorem mapM_latestValue {cols : List (Bytes × List Float)} (h : cols.length = values.length) :
    (List.zipWith (fun c v => (c.1, [v])) cols values).mapM latestValue =
      .ok ((cols.map Prod.fst).zip values) := by
  induction cols generalizing values with
  | nil => rfl
  | cons c cols ih =>
    cases values with
    | nil => cases h
    | cons value values =>
      rw [List.zipWith_cons_cons, List.mapM_cons, ih (by simpa using h)]
      rfl

theorem getLatestData_setColumns (timeseries : Timeseries) (values : List Float) (name : Bytes)
    (ht : timeseries.timestamps = [tval]) (hlen : timeseries.data.length = values.length) :
    (timeseries.setColumns 0 values).getLatestData name =
      .ok ⟨name, tval, (timeseries.data.map Prod.fst).zip values⟩ := by
  simp only [Timeseries.getLatestData, Timeseries.timestamps_setColumns, ht,
    List.getLast?_singleton, timeseries.data_setColumns_all hlen, mapM_latestValue hlen]
  rfl

end Mutelemetry.Parse
