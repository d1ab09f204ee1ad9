import Mutelemetry.Lib.Framing
import Mutelemetry.Telemetry.Calls

/-!
# A log file and its reader

What the log is for: the header, then messages that each tell their size. The
reader takes the header and as many whole messages as there are, and keeps what
is left of a message that was cut.
-/

namespace Mutelemetry.Telemetry

open ByteString Ulog

-- ---------------------------------------------------------------------------
-- Records
-- ---------------------------------------------------------------------------

structure Record where
  type : ULogMessageType
  body : Bytes
  small : body.length < 2 ^ 16

namespace Record

def bytes (r : Record) : Bytes := frame r.type r.body

theorem take_small (lo hi : UInt8) (rest : Bytes) :
    (rest.take (leNat [lo, hi])).length < 2 ^ 16 := by
  have h := leNat_lt [lo, hi]
  rw [List.length_take]
  simp only [List.length_cons, List.length_nil] at h
  omega

def next : Bytes → Option (Record × Bytes)
  | lo :: hi :: code :: rest =>
    match ULogMessageType.ofCode code with
    | none => none
    | some type =>
      if leNat [lo, hi] ≤ rest.length then
        some (⟨type, rest.take (leNat [lo, hi]), take_small lo hi rest⟩,
          rest.drop (leNat [lo, hi]))
      else none
  | _ => none

theorem bytes_eq (r : Record) : ∃ lo hi, r.bytes = lo :: hi :: r.type.code :: r.body ∧
    leNat [lo, hi] = r.body.length := by
  refine ⟨_, _, rfl, ?_⟩
  show leNat (leBytes 2 (UInt16.ofNat r.body.length).toNat) = r.body.length
  rw [UInt16.toNat_ofNat_of_lt' r.small, leNat_leBytes_of_lt r.small]

theorem next_bytes (r : Record) (rest : Bytes) : next (r.bytes ++ rest) = some (r, rest) := by
  obtain ⟨lo, hi, h, hlen⟩ := r.bytes_eq
  simp [h, next, hlen]

theorem next_part {r : Record} (h : part <+: r.bytes) (hne : part ≠ r.bytes) :
    next part = none := by
  obtain ⟨lo, hi, hr, hlen⟩ := r.bytes_eq
  rw [hr] at h hne
  match part with
  | [] | [_] | [_, _] => rfl
  | _ :: _ :: _ :: rest =>
    simp only [List.cons_prefix_cons] at h
    obtain ⟨rfl, rfl, rfl, hrest⟩ := h
    have hshort : rest.length < r.body.length :=
      lt_of_le_of_ne hrest.length_le fun heq => hne (by rw [hrest.eq_of_length heq])
    simp [next, hlen, Nat.not_le.mpr hshort]

theorem next_shorter (h : next bs = some (r, rest)) : rest.length < bs.length := by
  match bs with
  | [] | [_] | [_, _] => cases h
  | lo :: hi :: code :: bs =>
    simp only [next] at h
    split at h
    · cases h
    · split at h
      · cases h
        simp only [List.length_cons, List.length_drop]
        omega
      · cases h

def framing : Framing UInt8 Record where
  bytes := bytes
  next := next
  next_bytes := next_bytes
  next_part := next_part
  next_shorter := next_shorter

end Record

-- ---------------------------------------------------------------------------
-- The reader
-- ---------------------------------------------------------------------------

structure LogFile where
  timestamp : UInt64
  records : List Record
  /-- What is left of a message that was cut. -/
  torn : Bytes

def LogFile.read (content : Bytes) : Option LogFile :=
  if content.take 8 = magic ++ [0x01] ∧ 16 ≤ content.length then
    some ⟨UInt64.ofNat (leNat ((content.drop 8).take 8)),
      (Record.framing.split (content.drop 16)).1, (Record.framing.split (content.drop 16)).2⟩
  else none

theorem length_fileHeader (timestamp : UInt64) : (fileHeader timestamp).length = 16 := rfl

theorem read_header (timestamp : UInt64) (bs : Bytes) :
    LogFile.read (fileHeader timestamp ++ bs) =
      some ⟨timestamp, (Record.framing.split bs).1, (Record.framing.split bs).2⟩ := by
  have hmagic : (fileHeader timestamp ++ bs).take 8 = magic ++ [0x01] := rfl
  have hrest : (fileHeader timestamp ++ bs).drop 16 = bs := rfl
  have htime : ((fileHeader timestamp ++ bs).drop 8).take 8 = leBytes 8 timestamp.toNat := rfl
  have hlen : 16 ≤ (fileHeader timestamp ++ bs).length := by
    simp [length_fileHeader]
  rw [LogFile.read, if_pos ⟨hmagic, hlen⟩, htime, hrest, ofNat_leNat_uint64]

/-- From a part of a log the reader gets its first messages, whole. -/
theorem read_prefix {rs : List Record}
    (h : content <+: fileHeader timestamp ++ rs.flatMap Record.bytes) (hlen : 16 ≤ content.length) :
    ∃ n torn, LogFile.read content = some ⟨timestamp, rs.take n, torn⟩ ∧
      content = fileHeader timestamp ++ ((rs.take n).flatMap Record.bytes ++ torn) ∧
      (torn = [] ∨ ∃ r ∈ rs[n]?, torn <+: r.bytes ∧ torn ≠ r.bytes) := by
  obtain ⟨bs, rfl⟩ : fileHeader timestamp <+: content :=
    List.prefix_of_prefix_length_le (List.prefix_append _ _) h (by rwa [length_fileHeader])
  obtain ⟨n, torn, hsplit, rfl, htorn⟩ :=
    Record.framing.split_prefix ((List.prefix_append_right_inj _).mp h)
  exact ⟨n, torn, by rw [read_header, hsplit], rfl, htorn⟩

-- ---------------------------------------------------------------------------
-- The messages of the calls
-- ---------------------------------------------------------------------------

def Call.types : Call → List ULogMessageType
  | .registerParamInt .. | .registerParamFloat .. => [.P]
  | .registerInfo .. => [.I]
  | .registerInfoMulti .. => [.M]
  | .registerDataFormat .. => [.F]
  | .storeData .. => [.A, .D]
  | .storeMessage .. => [.L]

namespace MuTelemetry

theorem records_frame (type : ULogMessageType) (hlen : body.length < 2 ^ 16) :
    ∃ rs : List Record, rs.map Record.type = [type] ∧ frame type body = rs.flatMap Record.bytes :=
  ⟨[⟨type, body, hlen⟩], rfl, by simp [Record.bytes]⟩

theorem records_record (msgId : UInt16) (multiId : UInt8) (timestamp : UInt64)
    (hname : name.length ≤ 255) (hdata : data.length ≤ 1500) :
    ∃ rs : List Record, rs.map Record.type = [.A, .D] ∧
      record msgId multiId name timestamp data = rs.flatMap Record.bytes := by
  refine ⟨[⟨.A, [multiId] ++ (leBytes 2 msgId.toNat ++ name), ?_⟩,
    ⟨.D, leBytes 2 msgId.toNat ++ (leBytes 8 timestamp.toNat ++ data), ?_⟩], rfl,
    by simp [Record.bytes, record]⟩
  · simp only [List.length_append, List.length_singleton, length_leBytes]
    omega
  · simp only [List.length_append, length_leBytes]
    omega

theorem Enqueues.records (h : Enqueues t c m t') :
    ∃ rs : List Record, rs.map Record.type = c.types ∧ m = rs.flatMap Record.bytes := by
  cases h with
  | paramInt hroom | paramFloat hroom =>
    refine records_frame _ ?_
    rw [length_keyedBody (by simpa using hroom), length_leBytes]
    simp only [List.length_nil]
    omega
  | info hroom | infoMulti hroom =>
    refine records_frame _ ?_
    rw [length_keyedBody hroom]
    simp only [List.length_nil, List.length_singleton]
    omega
  | @dataFormat typeName fields hlen =>
    have hpos := length_formatText typeName fields
    exact records_frame _ (by rw [length_printedFormat (by omega)]; omega)
  | data hname hmin hmax =>
    refine records_record _ _ _ ?_ ?_
    · rw [List.length_take]
      omega
    · rw [List.length_drop]
      omega
  | @message _ _ message hlen =>
    refine records_frame _ ?_
    have hle := length_cstr_le message
    simp only [List.length_append, List.length_singleton, length_leBytes]
    omega

end MuTelemetry

end Mutelemetry.Telemetry
