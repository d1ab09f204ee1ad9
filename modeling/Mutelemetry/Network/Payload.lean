import Mutelemetry.Network

/-!
# Packed payloads

What `send_ulog` and `send_ulog_ack` give to the generated pack functions, which
copy all of the data field from the pointer they get. One passes a buffer of
the stack that only begins with the message, the other the message itself, and
behind it stands whatever the heap has there.
-/

namespace Mutelemetry.Network

open ByteString MutelemetryStreamer

structure PackArgs where
  systemId : UInt8
  componentId : UInt8
  targetSystem : UInt8
  targetComponent : UInt8
  sequence : UInt16
  length : UInt8
  firstMessageOffset : UInt8
  deriving DecidableEq, Repr

/-- What a send may read outside the message: `tempbuf` as it comes from the
stack, and what stands behind the message. -/
structure Memory where
  tempbuf : Bytes
  behind : Bytes
  length_tempbuf : tempbuf.length = fieldDataLen
  length_behind : fieldDataLen ≤ behind.length

/-- The data field has all the bytes it has room for, from the pointer on. The
payload has nothing else from memory, and the sender is not in it. -/
structure Copies (pack : PackArgs → Bytes → Payload) (field : Payload → Bytes) : Prop where
  data : ∀ args memory, fieldDataLen ≤ memory.length →
    field (pack args memory) = memory.take fieldDataLen
  only : ∀ args memory, pack args memory = pack args (memory.take fieldDataLen)
  sender : ∀ args systemId componentId memory,
    pack { args with systemId := systemId, componentId := componentId } memory = pack args memory

namespace MutelemetryStreamer

section
variable (pack : PackArgs → Bytes → Payload) (mcastId mcompId : UInt8)

def ulogPayload (s : MutelemetryStreamer) (data : Bytes) (memory : Memory) : Option Payload :=
  if fieldDataLen < data.length then none
  else
    let tempbuf := data ++ memory.tempbuf.drop data.length
    some (pack ⟨mcastId, mcompId, s.targetSystem, s.targetComponent, 0, .ofNat data.length, 255⟩
      tempbuf)

def ulogAckPayload (s : MutelemetryStreamer) (data : Bytes) (seq : UInt16) (memory : Memory) :
    Option Payload :=
  if fieldDataLen < data.length then none
  else some (pack ⟨mcastId, mcompId, s.targetSystem, s.targetComponent, seq, .ofNat data.length,
    255⟩ (data ++ memory.behind))

theorem ulogPayload_isSome (s : MutelemetryStreamer) (data : Bytes) (memory : Memory) :
    (s.ulogPayload pack mcastId mcompId data memory).isSome = (s.sendUlog data).isSome := by
  unfold ulogPayload sendUlog
  split
  · rfl
  · rfl

theorem ulogAckPayload_isSome (s : MutelemetryStreamer) (data : Bytes) (seq : UInt16)
    (memory : Memory) : (s.ulogAckPayload pack mcastId mcompId data seq memory).isSome =
      (s.sendUlogAck data seq).isSome := by
  unfold ulogAckPayload sendUlogAck
  split
  · rfl
  · rfl

end

end MutelemetryStreamer

-- ---------------------------------------------------------------------------
-- Two runs
-- ---------------------------------------------------------------------------

def Memory.filled (b : UInt8) : Memory where
  tempbuf := .replicate fieldDataLen b
  behind := .replicate fieldDataLen b
  length_tempbuf := List.length_replicate
  length_behind := (List.length_replicate).ge

section
variable {s s' : MutelemetryStreamer} {data : Bytes} {pack : PackArgs → Bytes → Payload}
  {field : Payload → Bytes} {mcastId mcompId mcastId' mcompId' : UInt8}

theorem ulogPayload_sender (hpack : Copies pack field) (m : Memory) :
    s.ulogPayload pack mcastId' mcompId' data m = s.ulogPayload pack mcastId mcompId data m := by
  unfold ulogPayload
  split
  · rfl
  · exact congrArg some (hpack.sender ⟨mcastId, mcompId, s.targetSystem, s.targetComponent, 0,
      .ofNat data.length, 255⟩ mcastId' mcompId' _)

theorem ulogAckPayload_sender (hpack : Copies pack field) (seq : UInt16) (m : Memory) :
    s.ulogAckPayload pack mcastId' mcompId' data seq m =
      s.ulogAckPayload pack mcastId mcompId data seq m := by
  unfold ulogAckPayload
  split
  · rfl
  · exact congrArg some (hpack.sender ⟨mcastId, mcompId, s.targetSystem, s.targetComponent, seq,
      .ofNat data.length, 255⟩ mcastId' mcompId' _)

theorem take_append_rest (hlen : data.length ≤ fieldDataLen) (rest : Bytes) :
    (data ++ rest).take fieldDataLen = data ++ rest.take (fieldDataLen - data.length) := by
  rw [List.take_append, List.take_of_length_le hlen]

/-- Two memories differ where the message leaves room. -/
theorem eq_of_fills (hlen : data.length ≤ fieldDataLen)
    (h : data ++ List.replicate (fieldDataLen - data.length) (0 : UInt8) =
      data ++ List.replicate (fieldDataLen - data.length) 1) : data.length = fieldDataLen := by
  have hfill := List.append_cancel_left h
  obtain hzero | hpos := Nat.eq_zero_or_pos (fieldDataLen - data.length)
  · omega
  · obtain ⟨n, hn⟩ := Nat.exists_eq_succ_of_ne_zero hpos.ne'
    rw [hn, List.replicate_succ, List.replicate_succ] at hfill
    exact absurd (List.cons.inj hfill).1 (by decide)

theorem ulogPayload_determined_iff (hpack : Copies pack field) (hlen : data.length ≤ fieldDataLen)
    (htarget : s.targetSystem = s'.targetSystem ∧ s.targetComponent = s'.targetComponent) :
    (∀ m m', s.ulogPayload pack mcastId mcompId data m =
      s'.ulogPayload pack mcastId' mcompId' data m') ↔ data.length = fieldDataLen := by
  have htempbuf (m : Memory) : (data ++ m.tempbuf.drop data.length).length = fieldDataLen := by
    rw [List.length_append, List.length_drop, m.length_tempbuf]
    omega
  have hsender (m : Memory) : s'.ulogPayload pack mcastId' mcompId' data m =
      s'.ulogPayload pack mcastId mcompId data m := ulogPayload_sender hpack m
  simp only [hsender]
  simp only [ulogPayload, if_neg (Nat.not_lt.mpr hlen), Option.some_inj, htarget]
  constructor
  · intro h
    have hfield := congrArg field (h (.filled 0) (.filled 1))
    rw [hpack.data _ _ (htempbuf _).ge, hpack.data _ _ (htempbuf _).ge, ← htempbuf (.filled 0),
      List.take_length, htempbuf, ← htempbuf (.filled 1), List.take_length] at hfield
    simp only [Memory.filled, List.drop_replicate] at hfield
    exact eq_of_fills hlen hfield
  · intro hfull m m'
    have hnone (m : Memory) : m.tempbuf.drop data.length = [] :=
      List.drop_eq_nil_of_le (by rw [m.length_tempbuf, hfull])
    rw [hnone m, hnone m']

theorem ulogAckPayload_determined_iff (hpack : Copies pack field)
    (hlen : data.length ≤ fieldDataLen) (seq : UInt16)
    (htarget : s.targetSystem = s'.targetSystem ∧ s.targetComponent = s'.targetComponent) :
    (∀ m m', s.ulogAckPayload pack mcastId mcompId data seq m =
      s'.ulogAckPayload pack mcastId' mcompId' data seq m') ↔ data.length = fieldDataLen := by
  have hsender (m : Memory) : s'.ulogAckPayload pack mcastId' mcompId' data seq m =
      s'.ulogAckPayload pack mcastId mcompId data seq m := ulogAckPayload_sender hpack seq m
  simp only [hsender]
  simp only [ulogAckPayload, if_neg (Nat.not_lt.mpr hlen), Option.some_inj, htarget]
  constructor
  · intro h
    have hfield := congrArg field (h (.filled 0) (.filled 1))
    have henough (m : Memory) : fieldDataLen ≤ (data ++ m.behind).length := by
      rw [List.length_append]
      exact m.length_behind.trans (Nat.le_add_left _ _)
    rw [hpack.data _ _ (henough _), hpack.data _ _ (henough _), take_append_rest hlen,
      take_append_rest hlen] at hfield
    simp only [Memory.filled, List.take_replicate, Nat.min_eq_left (Nat.sub_le _ _)] at hfield
    exact eq_of_fills hlen hfield
  · intro hfull m m'
    have hdata (m : Memory) : (data ++ m.behind).take fieldDataLen = data := by
      rw [take_append_rest hlen, hfull, Nat.sub_self, List.take_zero, List.append_nil]
    rw [hpack.only _ (data ++ m.behind), hpack.only _ (data ++ m'.behind), hdata, hdata]

end

/-- In both payloads nothing depends on memory outside the message if and only if
the message fills the data field. -/
theorem payloads_determined_iff {packData packDataAcked : PackArgs → Bytes → Payload}
    {field fieldAcked : Payload → Bytes} (hpack : Copies packData field)
    (hpackAcked : Copies packDataAcked fieldAcked) {data : Bytes}
    (hlen : data.length ≤ fieldDataLen) {s s' : MutelemetryStreamer}
    (htarget : s.targetSystem = s'.targetSystem ∧ s.targetComponent = s'.targetComponent)
    (mcastId mcompId mcastId' mcompId' : UInt8) (seq : UInt16) :
    ((∀ m m', s.ulogPayload packData mcastId mcompId data m =
      s'.ulogPayload packData mcastId' mcompId' data m') ↔ data.length = fieldDataLen) ∧
    ((∀ m m', s.ulogAckPayload packDataAcked mcastId mcompId data seq m =
      s'.ulogAckPayload packDataAcked mcastId' mcompId' data seq m') ↔
        data.length = fieldDataLen) :=
  ⟨ulogPayload_determined_iff hpack hlen htarget,
    ulogAckPayload_determined_iff hpackAcked hlen seq htarget⟩

/-- The payload of both messages as it lies on the wire. -/
def packBytes (args : PackArgs) (memory : Bytes) : Bytes :=
  leBytes 2 args.sequence.toNat ++ ([args.targetSystem, args.targetComponent, args.length,
    args.firstMessageOffset] ++ memory.take fieldDataLen)

theorem packBytes_copies : Copies packBytes (List.drop 6) where
  data := fun _ _ _ => rfl
  only := fun _ memory => by
    simp only [packBytes, List.take_take, Nat.min_self]
  sender := fun _ _ _ _ => rfl

theorem payloads_determined_iff_full :
    (MutelemetryStreamer.new false).ulogPayload packBytes 1 1 (.replicate 249 7) (.filled 0) =
      (MutelemetryStreamer.new false).ulogPayload packBytes 1 1 (.replicate 249 7) (.filled 1) :=
  (payloads_determined_iff packBytes_copies packBytes_copies (List.length_replicate).le ⟨rfl, rfl⟩ 1 1
    1 1 0).1.mpr List.length_replicate (.filled 0) (.filled 1)

/-- A message of one byte, sent on both paths. -/
theorem short_payloads_leak : ¬ ∀ data : Bytes, data.length ≤ fieldDataLen →
    ∀ (s : MutelemetryStreamer) seq (m m' : Memory),
      s.ulogPayload packBytes 1 1 data m = s.ulogPayload packBytes 1 1 data m' ∧
      s.ulogAckPayload packBytes 1 1 data seq m = s.ulogAckPayload packBytes 1 1 data seq m' := by
  intro h
  have hall := h [7] (by decide) (.new false) 0
  exact absurd ((ulogPayload_determined_iff packBytes_copies (show [7].length ≤ fieldDataLen by decide)
    ⟨rfl, rfl⟩).mp fun m m' => (hall m m').1) (by decide)

end Mutelemetry.Network
