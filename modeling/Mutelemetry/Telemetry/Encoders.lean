import Mutelemetry.Telemetry

/-!
# What the encoders enqueue

One equation for each encoder: when it refuses, what it enqueues when it does
not, and whether every size it computed is exact.
-/

namespace Mutelemetry.Telemetry

open ByteString Stateful Checked Ulog

namespace MuTelemetry

@[simp] theorem length_zeros (n : Nat) : (zeros n).length = n := by simp [zeros]

theorem zeros_add (m n : Nat) : zeros (m + n) = zeros m ++ zeros n := by
  simp [zeros, List.replicate_append_replicate]

def printed (text : Bytes) : Int := if text.length < 2 ^ 31 then text.length else -1

theorem run_write_type (n : Nat) (c : UInt8) (e : Bool) :
    (write (zeros (3 + n)) 2 [c]).run e = .ok ([0, 0, c] ++ zeros n) e := by
  change _ = EStateM.Result.ok ([0, 0] ++ ([c] ++ zeros n)) e
  exact run_write [0, 0] [0] (zeros n) (zeros_add 3 n) (by simp) (by simp) e

theorem run_write_next {pre src : Bytes} (k : Nat) (hpos : pos = pre.length)
    (hn : n = src.length + k) (e : Bool) :
    (write (pre ++ zeros n) pos src).run e = .ok (pre ++ src ++ zeros k) e := by
  rw [List.append_assoc]
  refine run_write pre (zeros src.length) _ ?_ hpos (by simp) e
  rw [← zeros_add, hn]

theorem run_snprintf_next {pre text : Bytes} (k : Nat) (hpos : pos = pre.length) (hsize : 0 < size)
    (hn : n = (text.take (size - 1)).length + 1 + k) (e : Bool) :
    (snprintf (pre ++ zeros n) pos size text).run e =
      .ok (pre ++ (text.take (size - 1) ++ [0]) ++ zeros k, printed text) e := by
  rw [List.append_assoc]
  refine run_snprintf pre (zeros ((text.take (size - 1)).length + 1)) _ ?_ hpos hsize (by simp) e
  rw [← zeros_add, hn]

/-- `key_len_` for a printed text. -/
def printedLen (text : Bytes) : UInt8 := .ofInt (printed text)

theorem toNat_printedLen (text : Bytes) :
    (printedLen text).toNat = if text.length < 2 ^ 31 then text.length % 256 else 255 := by
  unfold printedLen printed
  split
  · simp only [UInt8.ofInt, UInt8.toNat_ofNat']
    omega
  · rfl

theorem ofInt_printed (text : Bytes) : UInt8.ofInt (printed text) = printedLen text := rfl

/-- `key_len_` is the length of the text when that fits. -/
theorem printed_fits (text : Bytes) :
    (decide (0 ≤ printed text) && decide (printed text < 2 ^ 8)) = decide (text.length < 256) := by
  unfold printed
  rw [← Bool.decide_and, decide_eq_decide]
  split
  · omega
  · omega

theorem printedLen_le (h : (printedLen text).toNat < 255) :
    (printedLen text).toNat ≤ text.length := by
  rw [toNat_printedLen] at h ⊢
  split at h
  · rw [if_pos (by assumption)]
    exact Nat.mod_le _ _
  · omega

theorem run_serialized {m : Bytes} (type : ULogMessageType) (body rest : Bytes)
    (hm : m = [0, 0] ++ ([type.code] ++ (body ++ rest))) (hsize : msgSize = 3 + body.length)
    (hfits : body.length < 2 ^ 16) (e : Bool) :
    (serialized m msgSize).run e = .ok (frame type body) e := by
  have hsub : msgSize - 3 = body.length := by omega
  have hwrite : ∀ e, (write m 0 (leBytes 2 (UInt16.ofNat body.length).toNat)).run e =
      .ok ([] ++ (leBytes 2 (UInt16.ofNat body.length).toNat ++
        ([type.code] ++ (body ++ rest)))) e :=
    run_write [] [0, 0] _ hm rfl (by simp)
  have hread : ∀ e, (Checked.read ([] ++ (leBytes 2 (UInt16.ofNat body.length).toNat ++
      ([type.code] ++ (body ++ rest)))) 0 msgSize).run e = .ok (frame type body) e :=
    run_read _ rest (by simp [frame, ULogMessageHeader.bytes]) (by rw [length_frame, hsize])
  rw [serialized, run_seq, run_sub_of_le (by omega)]
  simp only [run_seq, run_toUInt16, hsub, hwrite, hread, hfits, decide_true, Bool.and_true]

variable {t : MuTelemetry} {type : ULogMessageType} {flags text value : Bytes}

def keyField (text : Bytes) : Bytes :=
  text.take 254 ++ [0] ++ zeros (254 - (text.take 254).length)

@[simp] theorem length_keyField (text : Bytes) : (keyField text).length = 255 := by
  simp only [keyField, List.length_append, List.length_take, List.length_singleton, length_zeros]
  omega

theorem take_keyField (h : n ≤ text.length) (hn : n ≤ 254) : (keyField text).take n = text.take n := by
  rw [keyField, List.append_assoc, List.take_append_of_le_length (by simp; omega), List.take_take,
    Nat.min_eq_left hn]

-- The struct of a keyed message, field by field in the order of the writes.

theorem run_typeKeyed (type : ULogMessageType) (flags : Bytes) (e : Bool) :
    (write (zeros (3 + flags.length + 1 + 255)) 2 [type.code]).run e =
      .ok ([0, 0] ++ ([type.code] ++ zeros (flags.length + 256))) e := by
  refine run_write [0, 0] [0] _ ?_ (by rfl) (by rfl) e
  rw [show 3 + flags.length + 1 + 255 = 3 + (flags.length + 256) by omega, zeros_add]
  rfl

theorem run_flagsKeyed (type : ULogMessageType) (flags : Bytes) (e : Bool) :
    (write ([0, 0] ++ ([type.code] ++ zeros (flags.length + 256))) 3 flags).run e =
      .ok ([0, 0, type.code] ++ (flags ++ zeros 256)) e := by
  refine run_write [0, 0, type.code] (zeros flags.length) _ ?_ (by rfl) (by simp) e
  rw [zeros_add]
  rfl

theorem run_keyKeyed (type : ULogMessageType) (flags text : Bytes) (e : Bool) :
    (snprintf ([0, 0, type.code] ++ (flags ++ zeros 256)) (3 + flags.length + 1) 255 text).run e =
      .ok (([0, 0, type.code] ++ flags ++ [0]) ++ keyField text, printed text) e := by
  rw [run_snprintf ([0, 0, type.code] ++ flags ++ [0]) (zeros ((text.take 254).length + 1))
    (zeros (254 - (text.take 254).length)) ?_ (by simp; omega) (by decide) (by simp)]
  · simp [keyField, printed]
  · rw [show 256 = 1 + (((text.take 254).length + 1) + (254 - (text.take 254).length)) by
      simp only [List.length_take]; omega, zeros_add, zeros_add]
    simp [zeros]

theorem run_keyLenKeyed (type : ULogMessageType) (flags text : Bytes) (e : Bool) :
    (write (([0, 0, type.code] ++ flags ++ [0]) ++ keyField text) (3 + flags.length)
      [printedLen text]).run e =
      .ok (([0, 0, type.code] ++ flags) ++ ([printedLen text] ++ keyField text)) e :=
  run_write ([0, 0, type.code] ++ flags) [0] _ (by simp) (by simp; omega) (by rfl) e

/-- The value is written over the end of `key_`. -/
theorem run_valueKeyed (type : ULogMessageType) (flags : Bytes)
    (hroom : (printedLen text).toNat + value.length < 255) (e : Bool) :
    (write ([0, 0, type.code] ++ flags ++ ([printedLen text] ++ keyField text))
      (3 + flags.length + 1 + (printedLen text).toNat) value).run e =
      .ok (([0, 0, type.code] ++ flags ++ [printedLen text] ++ text.take (printedLen text).toNat) ++
        (value ++ ((keyField text).drop (printedLen text).toNat).drop value.length)) e := by
  have hle := printedLen_le (show (printedLen text).toNat < 255 by omega)
  refine run_write _ (((keyField text).drop (printedLen text).toNat).take value.length) _ ?_ ?_ ?_ e
  · rw [List.take_append_drop, ← take_keyField hle (by omega)]
    simp only [List.append_assoc, List.take_append_drop]
  · simp only [List.length_append, List.length_cons, List.length_take, List.length_nil]
    omega
  · simp only [List.length_take, List.length_drop, length_keyField]
    omega

theorem run_serializedKeyed (type : ULogMessageType) (hflags : flags.length ≤ 1)
    (hroom : (printedLen text).toNat + value.length < 255) (rest : Bytes) (e : Bool) :
    (serialized (([0, 0, type.code] ++ flags ++ [printedLen text] ++
      text.take (printedLen text).toNat) ++ (value ++ rest))
      (3 + flags.length + 1 + (printedLen text).toNat + value.length)).run e =
      .ok (frame type (flags ++ ([printedLen text] ++
        (text.take (printedLen text).toNat ++ value)))) e := by
  have hle := printedLen_le (show (printedLen text).toNat < 255 by omega)
  have hbody : (flags ++ ([printedLen text] ++ (text.take (printedLen text).toNat ++ value))).length =
      flags.length + 1 + (printedLen text).toNat + value.length := by
    simp only [List.length_append, List.length_take, List.length_singleton]
    omega
  exact run_serialized type _ rest (by simp) (by omega) (by omega) e

theorem run_registerKeyed (ht : t.isEnabled = true) (hflags : flags.length ≤ 1) (e : Bool) :
    (t.registerKeyed type flags text value).run e =
      if (printedLen text).toNat + value.length < 255 then
        .ok (true, t.toIo (frame type (flags ++ ([printedLen text] ++
          (text.take (printedLen text).toNat ++ value))))) (e && text.length < 256)
      else .ok (false, t) (e && text.length < 256) := by
  simp only [registerKeyed, ht, Bool.not_true, Bool.false_eq_true, ↓reduceIte, run_seq,
    run_typeKeyed, run_flagsKeyed, run_keyKeyed, run_toUInt8, ofInt_printed, printed_fits,
    run_keyLenKeyed]
  have hr := (printedLen text).toNat_lt
  have hpos : 3 + flags.length + 1 + 255 - 255 + (printedLen text).toNat =
      3 + flags.length + 1 + (printedLen text).toNat := by omega
  have hleft : 3 + flags.length + 1 + 255 - (3 + flags.length + 1 + (printedLen text).toNat) =
      255 - (printedLen text).toNat := by omega
  rw [run_sub_of_le (by omega), hpos, hleft]
  by_cases hroom : value.length < 255 - (printedLen text).toNat
  · have hroom' : (printedLen text).toNat + value.length < 255 := by omega
    simp only [if_pos hroom, if_pos hroom', run_seq, run_valueKeyed type flags hroom',
      run_serializedKeyed type hflags hroom', EStateM.run_pure]
  · simp only [if_neg hroom, if_neg (show ¬ (printedLen text).toNat + value.length < 255 by omega)]
    rfl

-- ---------------------------------------------------------------------------
-- Formats and texts
-- ---------------------------------------------------------------------------

theorem printed_of_lt (h : text.length < 2 ^ 31) : printed text = text.length := if_pos h

/-- A format is printed with its own length for a size, so its last byte gives
way to the NUL. -/
def printedFormat (format : Bytes) : Bytes := format.take (format.length - 1) ++ [0]

theorem length_formatText (typeName fields : Bytes) :
    (formatText typeName fields).length = typeName.length + 20 + fields.length := by
  simp only [formatText, List.length_append]
  rfl

theorem length_printedFormat (h : 0 < format.length) :
    (printedFormat format).length = format.length := by
  simp only [printedFormat, List.length_append, List.length_take, List.length_singleton]
  omega

theorem run_typeF (e : Bool) : (write (zeros 1503) 2 [ULogMessageType.F.code]).run e =
    .ok ([0, 0, ULogMessageType.F.code] ++ zeros 1500) e :=
  run_write_type 1500 _ e

theorem run_textF (hpos : 0 < format.length)
    (hfit : format.length ≤ 1500 ∨ (cstr format).length < 1500) (e : Bool) :
    (snprintf ([0, 0, ULogMessageType.F.code] ++ zeros 1500) 3 format.length (cstr format)).run e =
      .ok ([0, 0, ULogMessageType.F.code] ++ ((cstr format).take (format.length - 1) ++ [0]) ++
        zeros (1499 - ((cstr format).take (format.length - 1)).length), (cstr format).length) e := by
  have hle := length_cstr_le format
  rw [run_snprintf_next (1499 - ((cstr format).take (format.length - 1)).length) ?_ ?_ ?_,
    printed_of_lt (by omega)]
  · simp
  · omega
  · rw [List.length_take]
    omega

theorem run_serializedF (hpos : 0 < format.length) (hle : format.length ≤ 1500) (e : Bool) :
    (serialized ([0, 0, ULogMessageType.F.code] ++ (format.take (format.length - 1) ++ [0]) ++
      zeros (1499 - (format.take (format.length - 1)).length)) (1503 - 1500 + format.length)).run e =
      .ok (frame .F (printedFormat format)) e := by
  have hlen := length_printedFormat hpos
  refine run_serialized .F _ (zeros (1499 - (format.take (format.length - 1)).length)) ?_ ?_ ?_ e
  · simp [printedFormat]
  · omega
  · omega

theorem run_registerDataFormat (ht : t.isEnabled = true) (typeName fields : Bytes) (e : Bool) :
    (t.registerDataFormat typeName fields).run e =
      if (formatText typeName fields).length ≤ 1500 ∨
          (cstr (formatText typeName fields)).length < 1500 then
        if 0 ∈ formatText typeName fields then .error .assertion e
        else .ok (true, t.toIo (frame .F (printedFormat (formatText typeName fields)))) e
      else .error .outOfBounds e := by
  have hpos : 0 < (formatText typeName fields).length := by
    rw [length_formatText]
    omega
  simp only [registerDataFormat, ht, Bool.not_true, Bool.false_eq_true, ↓reduceIte,
    run_seq, run_typeF]
  generalize formatText typeName fields = format at hpos ⊢
  have hle := length_cstr_le format
  by_cases hfit : format.length ≤ 1500 ∨ (cstr format).length < 1500
  · rw [if_pos hfit]
    simp only [run_textF hpos hfit]
    by_cases hnul : 0 ∈ format
    · have hlt := length_cstr_lt hnul
      have hne : ¬ ((cstr format).length : Int) % 2 ^ 64 = format.length := by omega
      rw [if_pos hnul]
      simp only [hne, decide_false, run_assert_false]
    · have hwhole : cstr format = format := cstr_eq_self hnul
      rw [hwhole] at hfit ⊢
      have heq : (format.length : Int) % 2 ^ 64 = format.length := by omega
      rw [if_neg hnul]
      simp only [heq, decide_true, run_assert_true, run_serializedF hpos (show _ ≤ 1500 by omega),
        EStateM.run_pure, run_toSize_natCast (show format.length < 2 ^ 64 by omega)]
  · rw [if_neg hfit]
    have hover := run_snprintf_of_lt
      (show 0 < format.length by omega)
      (show ([0, 0, ULogMessageType.F.code] ++ zeros 1500).length <
        3 + (((cstr format).take (format.length - 1)).length + 1) by
          simp only [List.length_append, List.length_take, length_zeros, List.length_cons,
            List.length_nil]
          omega) e
    simp only [hover]

theorem run_typeL (e : Bool) : (write (zeros 1512) 2 [ULogMessageType.L.code]).run e =
    .ok ([0, 0, ULogMessageType.L.code] ++ zeros 1509) e :=
  run_write_type 1509 _ e

theorem run_levelL (level : ULogLevel) (e : Bool) :
    (write ([0, 0, ULogMessageType.L.code] ++ zeros 1509) 3 [level.code]).run e =
      .ok ([0, 0, ULogMessageType.L.code] ++ [level.code] ++ zeros 1508) e :=
  run_write_next 1508 (by rfl) (by rfl) e

theorem run_timestampL (level : ULogLevel) (timestamp : UInt64) (e : Bool) :
    (write ([0, 0, ULogMessageType.L.code] ++ [level.code] ++ zeros 1508) 4
      (leBytes 8 timestamp.toNat)).run e =
      .ok ([0, 0, ULogMessageType.L.code] ++ [level.code] ++ leBytes 8 timestamp.toNat ++
        zeros 1500) e :=
  run_write_next 1500 (by rfl) (by rfl) e

theorem run_textL (level : ULogLevel) (timestamp : UInt64) (h : text.length < 1500) (e : Bool) :
    (snprintf ([0, 0, ULogMessageType.L.code] ++ [level.code] ++ leBytes 8 timestamp.toNat ++
      zeros 1500) 12 1500 text).run e =
      .ok ([0, 0, ULogMessageType.L.code] ++ [level.code] ++ leBytes 8 timestamp.toNat ++
        (text ++ [0]) ++ zeros (1499 - text.length), text.length) e := by
  have htake : text.take (1500 - 1) = text := List.take_of_length_le (by omega)
  rw [run_snprintf_next (1499 - text.length) ?_ ?_ ?_, htake, printed_of_lt (by omega)]
  · simp
  · decide
  · rw [htake]
    omega

theorem run_serializedL (level : ULogLevel) (timestamp : UInt64) (h : text.length < 1500) (e : Bool) :
    (serialized ([0, 0, ULogMessageType.L.code] ++ [level.code] ++ leBytes 8 timestamp.toNat ++
      (text ++ [0]) ++ zeros (1499 - text.length)) (1512 - 1500 + text.length)).run e =
      .ok (frame .L ([level.code] ++ (leBytes 8 timestamp.toNat ++ text))) e := by
  refine run_serialized .L _ ([0] ++ zeros (1499 - text.length)) (by simp) ?_ ?_ e
  · simp only [List.length_append, List.length_singleton, length_leBytes]
    omega
  · simp only [List.length_append, List.length_singleton, length_leBytes]
    omega

theorem run_storeMessage (ht : t.isEnabled = true) (message : Bytes) (level : ULogLevel)
    (timestamp : UInt64) (e : Bool) :
    (t.storeMessage message level timestamp).run e =
      if message.length < 1500 then
        .ok (true, t.toIo (frame .L ([level.code] ++ (leBytes 8 timestamp.toNat ++
          cstr message)))) e
      else .ok (false, t) e := by
  simp only [storeMessage, ht, Bool.not_true, Bool.false_eq_true, ↓reduceIte]
  by_cases h : message.length < 1500
  · have hle := length_cstr_le message
    have hlt : (cstr message).length < 1500 := by omega
    rw [if_neg (by omega), if_pos h]
    simp only [run_seq, run_typeL, run_levelL, run_timestampL, run_textL level timestamp hlt,
      run_toSize_natCast (show (cstr message).length < 2 ^ 64 by omega),
      run_serializedL level timestamp hlt, EStateM.run_pure]
  · rw [if_pos (by omega), if_neg h]
    rfl

-- ---------------------------------------------------------------------------
-- Records
-- ---------------------------------------------------------------------------

/-- The number of bytes of a type name that `memcpy` is given. -/
def nameLen (typeName : Bytes) : Nat := ((typeName.length : Int).bmod (2 ^ 32) % 2 ^ 64).toNat

theorem nameLen_of_lt (h : typeName.length < 2 ^ 31) : nameLen typeName = typeName.length := by
  unfold nameLen
  rw [Int.bmod_def]
  split <;> omega

/-- A name of 2^32 bytes or more may look short. -/
theorem nameLen_le_iff : nameLen typeName ≤ 255 ↔ typeName.length % 2 ^ 32 ≤ 255 := by
  unfold nameLen
  rw [Int.bmod_def]
  split <;> omega

theorem nameLen_le (h : nameLen typeName ≤ 255) : nameLen typeName ≤ typeName.length := by
  unfold nameLen at h ⊢
  rw [Int.bmod_def] at h ⊢
  split at h <;> split <;> omega

theorem nameLen_nonneg (h : nameLen typeName ≤ 255) :
    0 ≤ (typeName.length : Int).bmod (2 ^ 32) := by
  unfold nameLen at h
  rw [Int.bmod_def] at h ⊢
  split at h <;> split <;> omega

def record (msgId : UInt16) (multiId : UInt8) (name : Bytes) (timestamp : UInt64)
    (data : Bytes) : Bytes :=
  frame .A ([multiId] ++ (leBytes 2 msgId.toNat ++ name)) ++
    frame .D (leBytes 2 msgId.toNat ++ (leBytes 8 timestamp.toNat ++ data))

/-- The identifiers of a record, and the state that has allocated them. -/
def identify (t : MuTelemetry) (typeName annotation : Bytes) : UInt16 × UInt8 × MuTelemetry :=
  let (msgId, t) := t.getMsgId typeName
  let (multiId, t) := t.getMultiId msgId annotation
  (msgId, multiId, t)

theorem run_typeName (h : nameLen typeName ≤ typeName.length) (e : Bool) :
    (Checked.read (typeName ++ [0]) 0 (nameLen typeName)).run e =
      .ok (typeName.take (nameLen typeName)) e := by
  refine run_read _ (typeName.drop (nameLen typeName) ++ [0]) ?_ ?_ e
  · rw [← List.append_assoc, List.take_append_drop]
  · rw [List.length_take]
    omega

theorem run_typeA (e : Bool) : (write (zeros 261) 2 [ULogMessageType.A.code]).run e =
    .ok ([0, 0, ULogMessageType.A.code] ++ zeros 258) e :=
  run_write_type 258 _ e

theorem run_multiIdA (multiId : UInt8) (e : Bool) :
    (write ([0, 0, ULogMessageType.A.code] ++ zeros 258) 3 [multiId]).run e =
      .ok ([0, 0, ULogMessageType.A.code] ++ [multiId] ++ zeros 257) e :=
  run_write_next 257 (by rfl) (by rfl) e

theorem run_msgIdA (multiId : UInt8) (msgId : UInt16) (e : Bool) :
    (write ([0, 0, ULogMessageType.A.code] ++ [multiId] ++ zeros 257) 4
      (leBytes 2 msgId.toNat)).run e =
      .ok ([0, 0, ULogMessageType.A.code] ++ [multiId] ++ leBytes 2 msgId.toNat ++ zeros 255) e :=
  run_write_next 255 (by rfl) (by rfl) e

theorem run_nameA (multiId : UInt8) (msgId : UInt16) (hname : nameLen typeName ≤ 255) (e : Bool) :
    (write ([0, 0, ULogMessageType.A.code] ++ [multiId] ++ leBytes 2 msgId.toNat ++ zeros 255) 6
      (typeName.take (nameLen typeName))).run e =
      .ok ([0, 0, ULogMessageType.A.code] ++ [multiId] ++ leBytes 2 msgId.toNat ++
        typeName.take (nameLen typeName) ++ zeros (255 - nameLen typeName)) e := by
  have hle := nameLen_le hname
  refine run_write_next _ rfl ?_ e
  rw [List.length_take]
  omega

theorem run_serializedA (multiId : UInt8) (msgId : UInt16) (hname : nameLen typeName ≤ 255) (e : Bool) :
    (serialized ([0, 0, ULogMessageType.A.code] ++ [multiId] ++ leBytes 2 msgId.toNat ++
      typeName.take (nameLen typeName) ++ zeros (255 - nameLen typeName))
      (261 - 255 + nameLen typeName)).run e =
      .ok (frame .A ([multiId] ++ (leBytes 2 msgId.toNat ++ typeName.take (nameLen typeName)))) e := by
  have hle := nameLen_le hname
  refine run_serialized .A _ (zeros (255 - nameLen typeName)) (by simp) ?_ ?_ e
  · simp only [List.length_append, List.length_singleton, length_leBytes, List.length_take]
    omega
  · simp only [List.length_append, List.length_singleton, length_leBytes, List.length_take]
    omega

theorem run_typeD (e : Bool) : (write (zeros 1505) 2 [ULogMessageType.D.code]).run e =
    .ok ([0, 0, ULogMessageType.D.code] ++ zeros 1502) e :=
  run_write_type 1502 _ e

theorem run_msgIdD (msgId : UInt16) (e : Bool) :
    (write ([0, 0, ULogMessageType.D.code] ++ zeros 1502) 3 (leBytes 2 msgId.toNat)).run e =
      .ok ([0, 0, ULogMessageType.D.code] ++ leBytes 2 msgId.toNat ++ zeros 1500) e :=
  run_write_next 1500 (by rfl) (by rfl) e

theorem run_timestampD (msgId : UInt16) (timestamp : UInt64) (e : Bool) :
    (write ([0, 0, ULogMessageType.D.code] ++ leBytes 2 msgId.toNat ++ zeros 1500) 5
      (leBytes 8 timestamp.toNat)).run e =
      .ok ([0, 0, ULogMessageType.D.code] ++ leBytes 2 msgId.toNat ++ leBytes 8 timestamp.toNat ++
        zeros 1492) e :=
  run_write_next 1492 (by rfl) (by rfl) e

theorem run_dataD {data : Bytes} (msgId : UInt16) (timestamp : UInt64) (hmin : 8 ≤ data.length)
    (hmax : data.length ≤ 1500) (e : Bool) :
    (write ([0, 0, ULogMessageType.D.code] ++ leBytes 2 msgId.toNat ++ leBytes 8 timestamp.toNat ++
      zeros 1492) 13 (data.drop 8)).run e =
      .ok ([0, 0, ULogMessageType.D.code] ++ leBytes 2 msgId.toNat ++ leBytes 8 timestamp.toNat ++
        data.drop 8 ++ zeros (1500 - data.length)) e := by
  refine run_write_next _ rfl ?_ e
  rw [List.length_drop]
  omega

theorem run_serializedD {data : Bytes} (msgId : UInt16) (timestamp : UInt64) (hmin : 8 ≤ data.length)
    (hmax : data.length ≤ 1500) (e : Bool) :
    (serialized ([0, 0, ULogMessageType.D.code] ++ leBytes 2 msgId.toNat ++
      leBytes 8 timestamp.toNat ++ data.drop 8 ++ zeros (1500 - data.length))
      (1505 - 1500 + data.length)).run e =
      .ok (frame .D (leBytes 2 msgId.toNat ++ (leBytes 8 timestamp.toNat ++ data.drop 8))) e := by
  refine run_serialized .D _ (zeros (1500 - data.length)) (by simp) ?_ ?_ e
  · simp only [List.length_append, length_leBytes, List.length_drop]
    omega
  · simp only [List.length_append, length_leBytes, List.length_drop]
    omega

theorem run_storeDataIntl (ht : t.isEnabled = true) (data typeName annotation : Bytes)
    (timestamp : UInt64) (hname : nameLen typeName ≤ 255) (e : Bool) :
    (t.storeDataIntl data typeName annotation timestamp).run e =
      if 1500 < data.length then
        .ok (false, (t.identify typeName annotation).2.2) (e && typeName.length < 2 ^ 31)
      else if data.length < 8 then .error .outOfBounds false
      else .ok (true, (t.identify typeName annotation).2.2.toIo (record
        (t.identify typeName annotation).1 (t.identify typeName annotation).2.1
        (typeName.take (nameLen typeName)) timestamp (data.drop 8)))
        (e && typeName.length < 2 ^ 31) := by
  rcases hid : t.getMsgId typeName with ⟨msgId, t₁⟩
  rcases hmulti : t₁.getMultiId msgId annotation with ⟨multiId, t₂⟩
  have hids : t.identify typeName annotation = (msgId, multiId, t₂) := by
    simp only [identify, hid, hmulti]
  have hnn := nameLen_nonneg hname
  have hsize : ((typeName.length : Int).bmod (2 ^ 32) % 2 ^ 64).toNat = nameLen typeName := rfl
  simp only [storeDataIntl, ht, Bool.not_true, Bool.false_eq_true, ↓reduceIte, hid, hmulti, hids]
  -- the A message
  rw [run_seq_ok (run_typeA _), run_seq_ok (run_multiIdA multiId _),
    run_seq_ok (run_msgIdA multiId msgId _), run_seq_ok (run_toInt _ _),
    run_seq_ok (run_toSize _ _), hsize, run_seq_ok (run_typeName (nameLen_le hname) _),
    run_seq_ok (run_nameA multiId msgId hname _), run_seq_ok (run_serializedA multiId msgId hname _)]
  -- the D message
  rw [run_seq_ok (run_typeD _), run_seq_ok (run_msgIdD msgId _)]
  simp only [hnn, decide_true, Bool.and_true]
  by_cases hmax : data.length ≤ 1500
  · rw [if_pos hmax, if_neg (by omega), run_seq_ok (run_timestampD msgId timestamp _)]
    by_cases hmin : 8 ≤ data.length
    · rw [run_seq_ok (run_sub_of_le hmin _), run_seq_ok (run_read_rest hmin _),
        run_seq_ok (run_dataD msgId timestamp hmin hmax _),
        run_seq_ok (run_serializedD msgId timestamp hmin hmax _), if_neg (by omega)]
      simp only [EStateM.run_pure, record]
    · obtain ⟨n, hn, hsub⟩ := run_sub_of_lt (show data.length < 8 by omega) (by omega)
        (e && decide (typeName.length < 2 ^ 31))
      have hover : data.length < 8 + n := by omega
      rw [run_seq_ok hsub, if_pos (by omega)]
      exact run_seq_error (run_read_of_lt hover _) _
  · rw [if_neg hmax, if_pos (by omega)]
    rfl

/-- A name that does not fit is copied all the same. -/
theorem run_storeDataIntl_of_lt (ht : t.isEnabled = true) (data typeName annotation : Bytes)
    (timestamp : UInt64) (hname : 255 < nameLen typeName) (e : Bool) :
    (t.storeDataIntl data typeName annotation timestamp).run e = .error .outOfBounds
      (e && typeName.length < 2 ^ 31 && 0 ≤ (typeName.length : Int).bmod (2 ^ 32)) := by
  rcases hid : t.getMsgId typeName with ⟨msgId, t₁⟩
  rcases hmulti : t₁.getMultiId msgId annotation with ⟨multiId, t₂⟩
  have hsize : ((typeName.length : Int).bmod (2 ^ 32) % 2 ^ 64).toNat = nameLen typeName := rfl
  simp only [storeDataIntl, ht, Bool.not_true, Bool.false_eq_true, ↓reduceIte, hid, hmulti]
  rw [run_seq_ok (run_typeA _), run_seq_ok (run_multiIdA multiId _),
    run_seq_ok (run_msgIdA multiId msgId _), run_seq_ok (run_toInt _ _),
    run_seq_ok (run_toSize _ _), hsize]
  by_cases hread : nameLen typeName ≤ (typeName ++ [0]).length
  · have hover : ([0, 0, ULogMessageType.A.code] ++ [multiId] ++ leBytes 2 msgId.toNat ++
        zeros 255).length < 6 + ((typeName ++ [0]).take (nameLen typeName)).length := by
      rw [List.length_take]
      simp only [List.length_append, List.length_cons, List.length_nil, length_leBytes,
        length_zeros] at hread ⊢
      omega
    rw [run_seq_ok (run_read_take hread _)]
    exact run_seq_error (run_write_of_lt hover _) _
  · exact run_seq_error (run_read_of_lt (by omega) _) _

end MuTelemetry

end Mutelemetry.Telemetry
