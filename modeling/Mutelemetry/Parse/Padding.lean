import Mutelemetry.Lib.Prefix
import Mutelemetry.Parse.Coherence

/-!
# What stands behind a message

A client is given buffers of a fixed size with a message at their beginning.
A message that is accepted without a look behind its end is accepted in every
such buffer, and leaves the parser in the same state.
-/

namespace Mutelemetry.Parse

open ByteString Stateful Prefix Ulog

-- ---------------------------------------------------------------------------
-- Reads
-- ---------------------------------------------------------------------------

theorem fetch_append {m bs : Bytes} (rest : Bytes) (h : fetch m pos n = .ok bs) :
    fetch (m ++ rest) pos n = .ok bs := by
  unfold fetch at h ⊢
  by_cases hpos : 0 ≤ pos
  · rw [if_pos hpos] at h ⊢
    cases hw : window m pos.toNat n with
    | none =>
      rw [hw] at h
      cases h
    | some bs =>
      rw [hw] at h
      obtain ⟨hle, rfl, -⟩ := window_eq_some hw
      rw [window_isSome (by rw [List.length_append]; omega),
        List.drop_append_of_le_length (by omega),
        List.take_append_of_le_length (by rw [List.length_drop]; omega)]
      exact h
  · rw [if_neg hpos] at h
    cases h

theorem stable_fetch (pos : Int) (n : Nat) : Stable fun m : Bytes => fetch m pos n := by
  rintro m _ bs ⟨rest, rfl⟩ h
  exact fetch_append rest h

theorem stable_readUInt8 (pos : Nat) : Stable fun m : Bytes => readUInt8 m pos :=
  (stable_fetch pos 1).map _

theorem stable_readUInt16 (pos : Nat) : Stable fun m : Bytes => readUInt16 m pos :=
  (stable_fetch pos 2).map _

theorem stable_readUInt32 (pos : Nat) : Stable fun m : Bytes => readUInt32 m pos :=
  (stable_fetch pos 4).map _

theorem stable_readUInt64 (pos : Nat) : Stable fun m : Bytes => readUInt64 m pos :=
  (stable_fetch pos 8).map _

theorem stable_headerSize (hdr : Nat) : Stable fun m : Bytes => headerSize m hdr :=
  stable_readUInt16 hdr

theorem stable_headerType (hdr : Nat) : Stable fun m : Bytes => headerType m hdr :=
  (stable_readUInt8 (hdr + 2)).map _

theorem stable_readFrom (pos : Nat) : Stable fun m : Bytes => readFrom m pos := by
  refine (stable_fetch pos 7).bind fun bs => stable_ite ?_ (stable_const _)
  exact (stable_readUInt8 _).bind fun _ => (stable_readUInt64 _).bind fun _ => stable_const _

theorem stable_anySet (places : List Nat) : Stable fun m : Bytes => anySet m places := by
  induction places with
  | nil => exact stable_const _
  | cons pos places ih =>
    exact (stable_readUInt8 pos).bind fun c => stable_ite (stable_const _) ih

theorem stable_flagsState (pos : Nat) : Stable fun m : Bytes => flagsState m pos := by
  refine (stable_headerType pos).bind fun type => stable_ite ?_ (stable_const _)
  -- what is done with the bits, however they were found
  have hrest (first : UInt8) (unknown : Bool) : Stable fun m : Bytes =>
      if unknown = true then pure ParseState.invalid
      else if first &&& 1 ≠ 0 then do
        let _ ← fetch m ↑(pos + 3 + 16) 24
        pure .definition
      else pure .definition := by
    refine stable_ite (stable_const _) (stable_ite ?_ (stable_const _))
    exact (stable_fetch _ _).bind fun _ => stable_const _
  exact (stable_readUInt8 _).bind fun first =>
    stable_ite ((stable_const _).bind (hrest first)) ((stable_anySet _).bind (hrest first))

theorem stable_infoEntry (message : Nat) (msgSize : UInt16) :
    Stable fun m : Bytes => infoEntry m message msgSize := by
  refine (stable_readUInt8 message).bind fun keyLen => (stable_fetch _ _).bind fun rawKey => ?_
  split
  · refine stable_ite (stable_ite (stable_const _) ?_) (stable_const _)
    exact (stable_fetch _ _).bind fun value => stable_const _
  · exact stable_const _

theorem stable_readParameter (message : Nat) : Stable fun m : Bytes => readParameter m message := by
  refine (stable_readUInt8 message).bind fun keyLen => (stable_fetch _ _).bind fun key =>
    stable_ite (stable_const _) ?_
  cases parameterType (key.takeWhile (· ≠ charByte ' ')) with
  | none => exact stable_const _
  | some valType => exact (stable_readUInt32 _).bind fun _ => stable_const _

theorem stable_readSubscription (formats : Formats) (message : Nat) (msgSize : UInt16) :
    Stable fun m : Bytes => readSubscription formats m message msgSize := by
  refine (stable_readUInt8 _).bind fun multiId => (stable_readUInt16 _).bind fun msgId =>
    stable_ite (stable_const _) ?_
  exact (stable_fetch _ _).bind fun name => stable_const _

theorem stable_readLog (message : Nat) (msgSize : UInt16) :
    Stable fun m : Bytes => readLog m message msgSize := by
  refine (stable_readUInt8 _).bind fun level => (stable_readUInt64 _).bind fun timestamp =>
    stable_ite (stable_const _) ?_
  exact (stable_fetch _ _).bind fun msg => stable_const _

theorem stable_readLeaf (leaf : Leaf) : Stable fun m : Bytes => readLeaf m leaf :=
  (stable_fetch leaf.offset leaf.type.sizeOf).map leaf.type.toDouble

-- ---------------------------------------------------------------------------
-- Messages
-- ---------------------------------------------------------------------------

section
variable {p q : MutelemetryParser} {m b : Bytes}

theorem Delivers.padded (h : Delivers p m message sub q) (hm : m <+: b) :
    Delivers p b message sub q := by
  obtain ⟨hs, ht, hf, hwalk, hdata⟩ := h
  obtain ⟨leaves, stop, values, hl, hv, hroom, rfl⟩ := run_parseDataIntl_eq_ok.mp hwalk
  have hv' := stable_mapM stable_readLeaf leaves hm hv
  exact .mk hs (stable_readUInt64 _ hm ht) hf
    (run_parseDataIntl_eq_ok.mpr ⟨leaves, stop, values, hl, hv', hroom, rfl⟩) hdata

theorem Data.padded (h : Data p m message q) (hm : m <+: b) : Data p b message q := by
  cases h with
  | unsubscribed hid hnone => exact .unsubscribed (stable_readUInt16 _ hm hid) hnone
  | subscribed hid hsub hd =>
    exact .subscribed (stable_readUInt16 _ hm hid) hsub (hd.padded hm)

theorem behind_padded (hm : m <+: b) (h : behind p m hdr = (c, q)) (hq : q.strayed = false) :
    behind p b hdr = (c, q) := by
  unfold behind at h ⊢
  cases ht : headerType m hdr with
  | error fault =>
    rw [ht] at h
    cases h
    cases hq
  | ok type =>
    have ht' : headerType b hdr = .ok type := stable_headerType hdr hm ht
    rw [ht] at h
    rw [ht']
    exact h

theorem Data.strayed (h : Data p m message q) : q.strayed = p.strayed := by
  cases h with
  | unsubscribed => rfl
  | subscribed _ _ hd =>
    cases hd
    rfl

theorem behind_strayed (h : behind p m hdr = (c, q)) (hq : q.strayed = false) :
    p.strayed = false := by
  unfold behind at h
  split at h
  · cases h
    exact hq
  · cases h
    cases hq

theorem Handles.strayed (h : Handles m pos p s q) (hq : q.strayed = false) :
    p.strayed = false := by
  cases h with
  | header | flags | info | multi | format | param | logged | passed | remove | reject => exact hq
  | @add size sub _ _ _ _ _ hbehind =>
    have hsame : (p.subscribe sub).strayed = false := behind_strayed hbehind hq
    exact hsame
  | @addData size sub _ _ _ _ _ _ hbehind hd =>
    have hsame : (p.subscribe sub).strayed = false := behind_strayed hbehind (hd.strayed ▸ hq)
    exact hsame
  | data _ _ hd => exact hd.strayed ▸ hq

/-- What is done with a message does not depend on what stands behind it. -/
theorem Handles.padded (h : Handles m pos p s q) (hne : s ≠ .invalid) (hm : m <+: b)
    (hq : q.strayed = false) : Handles b pos p s q := by
  cases h with
  | header hs hr => exact .header hs (stable_readFrom pos hm hr)
  | flags hs hf => exact .flags hs (stable_flagsState pos hm hf)
  | info hb ht hsize he =>
    exact .info hb (stable_headerType pos hm ht) (stable_headerSize pos hm hsize)
      (stable_infoEntry _ _ hm he)
  | multi hb ht => exact .multi hb (stable_headerType pos hm ht)
  | format hs ht hsize hf =>
    exact .format hs (stable_headerType pos hm ht) (stable_headerSize pos hm hsize)
      (((stable_fetch _ _).bind fun _ => stable_const _) hm hf)
  | param hb ht hr =>
    exact .param hb (stable_headerType pos hm ht) (stable_readParameter _ hm hr)
  | add hb ht hsize hr hbehind =>
    exact .add hb (stable_headerType pos hm ht) (stable_headerSize pos hm hsize)
      (stable_readSubscription _ _ _ hm hr) (behind_padded hm hbehind hq)
  | addData hb ht hsize hr hbehind hd =>
    exact .addData hb (stable_headerType pos hm ht) (stable_headerSize pos hm hsize)
      (stable_readSubscription _ _ _ hm hr) (behind_padded hm hbehind (hd.strayed ▸ hq))
      (hd.padded hm)
  | data hs ht hd => exact .data hs (stable_headerType pos hm ht) (hd.padded hm)
  | logged hs ht hsize hr =>
    exact .logged hs (stable_headerType pos hm ht) (stable_headerSize pos hm hsize)
      (stable_readLog _ _ hm hr)
  | passed hs ht =>
    exact .passed hs (ht.imp (stable_headerType pos hm ·) (stable_headerType pos hm ·))
  | remove hs ht hr =>
    exact .remove hs (stable_headerType pos hm ht) (stable_readUInt16 _ hm hr)
  | reject => exact absurd rfl hne

theorem Data.run (h : Data p m message q) :
    (parseData m message).run p = .ok .definitionOrData q := by
  cases h with
  | unsubscribed hid hnone => exact run_parseData_none hid hnone
  | subscribed hid hsub hd => exact run_parseData_delivers hid hsub hd

theorem run_handle_of_handles (h : Handles m pos p s q) (hne : s ≠ .invalid) :
    ∃ r, (parse m pos).run p = settle r ∧ r = .ok s q := by
  cases h with
  | header hs hr =>
    refine ⟨_, run_parse _ _ _, ?_⟩
    simp only [hs, handle, run_seq, parseHeader, hr, run_lift_ok]
    rw [← hs]
    rfl
  | flags hs hf =>
    refine ⟨_, run_parse _ _ _, ?_⟩
    simp only [hs, handle, run_seq, parseFlags, hf, run_lift_ok]
    rfl
  | info hb ht hsize he =>
    refine ⟨_, run_parse_I hb ht hsize, ?_⟩
    rw [run_parseInfo, he]
  | multi hb ht =>
    refine ⟨_, run_parse _ _ _, ?_⟩
    obtain hs | hs := hb
    · simp only [hs, handle, parseDefinition, run_seq, ht, run_lift_ok]
      rw [← hs]
      rfl
    · simp only [hs, handle, parseDataSection, run_seq, ht, run_lift_ok]
      rw [← hs]
      rfl
  | format hs ht hsize hf =>
    refine ⟨_, run_parse _ _ _, ?_⟩
    simp only [hs, handle, parseDefinition, run_seq, ht, hsize, run_lift_ok, run_parseFormat, hf]
  | param hb ht hr =>
    refine ⟨_, run_parse_P hb ht, ?_⟩
    rw [run_parseParam, hr]
  | add hb ht hsize hr hbehind =>
    refine ⟨_, run_parse_A hb ht, ?_⟩
    rw [run_parseAddData hsize, hr]
    simp only [hbehind]
  | addData hb ht hsize hr hbehind hd =>
    refine ⟨_, run_parse_A hb ht, ?_⟩
    rw [run_parseAddData hsize, hr]
    simp only [hbehind, hd.run]
  | data hs ht hd => exact ⟨_, run_parse_D hs ht, hd.run⟩
  | logged hs ht hsize hr =>
    refine ⟨_, run_parse_L hs ht hsize, ?_⟩
    rw [run_parseLogged, hr]
  | passed hs ht =>
    refine ⟨_, run_parse _ _ _, ?_⟩
    obtain ht | ht := ht
    · simp only [hs, handle, parseDataSection, run_seq, ht, run_lift_ok]
      rfl
    · simp only [hs, handle, parseDataSection, run_seq, ht, run_lift_ok]
      rfl
  | remove hs ht hr =>
    refine ⟨_, run_parse _ _ _, ?_⟩
    simp only [hs, handle, parseDataSection, run_seq, ht, run_lift_ok, run_parseRemove, hr]
  | reject => exact absurd rfl hne

theorem Handles.run (h : Handles m pos p s q) (hne : s ≠ .invalid) :
    (parse m pos).run p = .ok true { q with state := s } := by
  obtain ⟨r, hr, rfl⟩ := run_handle_of_handles h hne
  rw [hr, settle, decide_eq_true hne]

/-- An accepted message is accepted in every buffer that begins with it. -/
theorem parse_padded (h : (parse m pos).run p = .ok true q) (hm : m <+: b)
    (hq : q.strayed = false) : (parse b pos).run p = .ok true q := by
  obtain ⟨s, r, hh, rfl, hs⟩ := parse_ok h
  have hne : s ≠ .invalid := by simpa using hs
  exact (hh.padded hne hm hq).run hne

theorem parse_strayed (h : (parse m pos).run p = .ok c q) (hq : q.strayed = false) :
    p.strayed = false := by
  obtain ⟨s, r, hh, rfl, -⟩ := parse_ok h
  exact hh.strayed hq

theorem length_of_parse (h : (parse m 0).run p = .ok true q) : 3 ≤ m.length := by
  have hheader : ∀ type, headerType m 0 = .ok type → 3 ≤ m.length := by
    intro type ht
    simp only [headerType, readUInt8, map_eq_ok] at ht
    obtain ⟨_, ⟨bs, hbs, -⟩, -⟩ := ht
    obtain ⟨hle, -⟩ := window_eq_some (fetch_eq_ok.mp hbs)
    omega
  obtain ⟨s, r, hh, rfl, hs⟩ := parse_ok h
  cases hh with
  | header _ hr =>
    obtain ⟨bs, hbs, -⟩ := bind_eq_ok.mp hr
    obtain ⟨hle, -⟩ := window_eq_some (fetch_eq_ok.mp hbs)
    omega
  | flags _ hf =>
    obtain ⟨type, ht, -⟩ := bind_eq_ok.mp hf
    exact hheader type ht
  | info _ ht | multi _ ht | format _ ht | param _ ht | add _ ht | addData _ ht | data _ ht
  | logged _ ht | remove _ ht => exact hheader _ ht
  | passed _ ht => exact ht.elim (hheader _) (hheader _)
  | reject => simp at hs

theorem checkUlogDataBegin_padded (hm : m <+: b) (hlen : 3 ≤ m.length) :
    checkUlogDataBegin b = checkUlogDataBegin m := by
  obtain ⟨rest, rfl⟩ := hm
  rw [checkUlogDataBegin, checkUlogDataBegin, List.getElem?_append_left (by omega)]

theorem valid_cases (h : valid p m = some q) : 3 ≤ m.length ∧
    ((checkUlogDataBegin m = false ∧ (parse m 0).run p = .ok true q) ∨
    ∃ r size, checkUlogDataBegin m = true ∧ (parse m 0).run p = .ok true r ∧
      headerSize m 0 = .ok size ∧ (parse m (3 + size.toNat)).run r = .ok true q) := by
  rw [valid_eq_some] at h
  cases hrun : (parse m 0).run p with
  | error fault r =>
    rw [run_checkUlogValid_error hrun] at h
    cases h
  | ok c r =>
    cases c with
    | false =>
      rw [run_checkUlogValid_once hrun (.inl rfl)] at h
      cases h
    | true =>
      have hlen := length_of_parse hrun
      refine ⟨hlen, ?_⟩
      cases hA : checkUlogDataBegin m with
      | false =>
        rw [run_checkUlogValid_once hrun (.inr hA)] at h
        cases h
        exact .inl ⟨rfl, rfl⟩
      | true =>
        obtain ⟨size, hsize⟩ : ∃ size, headerSize m 0 = .ok size := by
          rw [headerSize, readUInt16, fetch_of_le (by omega)]
          exact ⟨_, rfl⟩
        rw [run_checkUlogValid_begin hrun hA hsize] at h
        exact .inr ⟨r, size, rfl, rfl, hsize, h⟩

/-- `check_ulog_valid` too does not look at what stands behind. -/
theorem valid_padded (h : valid p m = some q) (hm : m <+: b) (hq : q.strayed = false) :
    valid p b = some q := by
  obtain ⟨hlen, ⟨hA, hrun⟩ | ⟨r, size, hA, hrun, hsize, hagain⟩⟩ := valid_cases h
  · have hB := (checkUlogDataBegin_padded hm hlen).trans hA
    exact valid_eq_some.mpr (run_checkUlogValid_once (parse_padded hrun hm hq) (.inr hB))
  · have hB := (checkUlogDataBegin_padded hm hlen).trans hA
    have hfirst := parse_padded hrun hm (parse_strayed hagain hq)
    rw [valid_eq_some, run_checkUlogValid_begin hfirst hB (stable_headerSize 0 hm hsize)]
    exact parse_padded hagain hm hq

theorem valid_strayed (h : valid p m = some q) (hq : q.strayed = false) : p.strayed = false := by
  obtain ⟨-, ⟨-, hrun⟩ | ⟨r, size, -, hrun, -, hagain⟩⟩ := valid_cases h
  · exact parse_strayed hrun hq
  · exact parse_strayed hrun (parse_strayed hagain hq)

theorem run_strayed (h : Transition.run valid p ms = some q) (hq : q.strayed = false) :
    p.strayed = false := by
  induction ms generalizing p with
  | nil =>
    cases h
    exact hq
  | cons m ms ih =>
    obtain ⟨r, hv, h⟩ := Transition.run_cons.mp h
    exact valid_strayed hv (ih h)

/-- Messages that are accepted without a look behind the end of one are accepted
in any buffers that begin with them, and the parser is the same in the end. -/
theorem run_valid_padded (h : Transition.run valid p ms = some q) (hq : q.strayed = false)
    (hbs : List.Forall₂ (· <+: ·) ms bs) : Transition.run valid p bs = some q := by
  induction hbs generalizing p with
  | nil => exact h
  | cons hm _ ih =>
    obtain ⟨r, hv, h⟩ := Transition.run_cons.mp h
    exact Transition.run_cons.mpr ⟨r, valid_padded hv hm (run_strayed h hq), ih h⟩

def paddedBuffers : List Bytes :=
  (oneType.map (·.1) ++ [oneRecord.1]).map fun m => m ++ List.replicate (249 - m.length) 65

theorem run_valid_padded_oneType : ∃ q,
    Transition.run valid .new (oneType.map (·.1) ++ [oneRecord.1]) = some q ∧
    Transition.run valid .new paddedBuffers = some q := by
  have hrun : (Transition.run valid .new (oneType.map (·.1) ++ [oneRecord.1])).map (·.strayed) =
      some false := by decide +kernel
  obtain ⟨q, hq, hstrayed⟩ := Option.map_eq_some_iff.mp hrun
  refine ⟨q, hq, run_valid_padded hq hstrayed ?_⟩
  simp only [paddedBuffers, List.forall₂_map_right_iff, List.forall₂_same]
  exact fun m _ => List.prefix_append m _

end

end Mutelemetry.Parse
