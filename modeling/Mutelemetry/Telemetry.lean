import Mathlib.Data.List.AList
import Mutelemetry.Lib.Checked
import Mutelemetry.Ulog

/-!
# The writer

The public calls of `MuTelemetry`. Each fills a packed struct, here the bytes
`sizeof` gives it, and enqueues its first `msg_size` bytes. Every size is
computed by the checked operations, so a size that wraps is remembered and a
write outside the struct stops the call. An `assert(0)` that comes with
`return false` is that return; the clock is an argument.
-/

namespace Mutelemetry.Telemetry

open ByteString Checked Ulog

-- ---------------------------------------------------------------------------
-- Identifiers
-- ---------------------------------------------------------------------------

structure ID (T : Type) where
  idCntr : T
  ids : AList fun _ : Bytes => T

def ID.new [OfNat T 0] : ID T := ⟨0, ∅⟩

/-- `get_id`: a new name gets the counter's value, which wraps with `T`. -/
def ID.getId [Add T] [OfNat T 1] (id : ID T) (name : Bytes) : T × ID T :=
  match id.ids.lookup name with
  | some i => (i, id)
  | none => (id.idCntr, ⟨id.idCntr + 1, id.ids.insert name id.idCntr⟩)

structure MuTelemetry where
  withNetwork : Bool
  withLocalLog : Bool
  startTimestamp : UInt64
  msgId : ID UInt16
  multiId : AList fun _ : UInt16 => ID UInt8
  logQueue : List Bytes
  netQueue : List Bytes

/-- The instance as the settings of `init` leave it, before its first call. -/
def MuTelemetry.new (withNetwork withLocalLog : Bool) (startTimestamp : UInt64) : MuTelemetry where
  withNetwork := withNetwork
  withLocalLog := withLocalLog
  startTimestamp := startTimestamp
  msgId := .new
  multiId := ∅
  logQueue := []
  netQueue := []

namespace MuTelemetry

def isEnabled (t : MuTelemetry) : Bool := t.withNetwork || t.withLocalLog

def getMsgId (t : MuTelemetry) (msgName : Bytes) : UInt16 × MuTelemetry :=
  let (i, msgId) := t.msgId.getId msgName
  (i, { t with msgId := msgId })

def getMultiId (t : MuTelemetry) (msgId : UInt16) (instName : Bytes) : UInt8 × MuTelemetry :=
  let (i, id) := ((t.multiId.lookup msgId).getD .new).getId instName
  (i, { t with multiId := t.multiId.insert msgId id })

def toIo (t : MuTelemetry) (dp : Bytes) : MuTelemetry := { t with
  logQueue := if t.withLocalLog then t.logQueue ++ [dp] else t.logQueue
  netQueue := if t.withNetwork then t.netQueue ++ [dp] else t.netQueue }

-- ---------------------------------------------------------------------------
-- Encoders
-- ---------------------------------------------------------------------------

def zeros (n : Nat) : Bytes := List.replicate n 0

def createHeaderAndFlags (t : MuTelemetry) : MuTelemetry :=
  if t.isEnabled then
    (t.toIo (fileHeader t.startTimestamp)).toIo (frame .B (zeros (8 + 8 + 24)))
  else t

/-- `h_.size_` is set and the first `msg_size` bytes of the struct are copied. -/
def serialized (m : Bytes) (msgSize : Nat) : Encoder Bytes := do
  let size ← toUInt16 (← sub msgSize 3)
  let m ← write m 0 (leBytes 2 size.toNat)
  read m 0 msgSize

/-- The body shared by the calls whose message is `h_`, some `flags`,
`key_len_`, `key_[255]` with the value laid behind the key. -/
def registerKeyed (t : MuTelemetry) (type : ULogMessageType) (flags text value : Bytes) :
    Encoder (Bool × MuTelemetry) := do
  if !t.isEnabled then return (true, t)
  let keyPos := 3 + flags.length + 1
  let sizeOf := keyPos + 255
  let m ← write (zeros sizeOf) 2 [type.code]
  let m ← write m 3 flags
  let (m, result) ← snprintf m keyPos 255 text
  let keyLen ← toUInt8 result
  let m ← write m (3 + flags.length) [keyLen]
  let msgSize := sizeOf - 255 + keyLen.toNat
  let room ← sub sizeOf msgSize
  if value.length < room then
    let m ← write m msgSize value
    return (true, t.toIo (← serialized m (msgSize + value.length)))
  else return (false, t)

/-- `register_param(const string &, int32_t)`. -/
def registerParamInt (t : MuTelemetry) (key : Bytes) (value : Int32) :
    Encoder (Bool × MuTelemetry) :=
  t.registerKeyed .P [] (cstr key) (leBytes 4 value.toUInt32.toNat)

/-- `register_param(const string &, float)`. -/
def registerParamFloat (t : MuTelemetry) (key : Bytes) (value : Float32) :
    Encoder (Bool × MuTelemetry) :=
  t.registerKeyed .P [] (cstr key) (leBytes 4 value.toBits.toNat)

def infoKey (len : Nat) (key : Bytes) : Bytes :=
  ascii "char[" ++ decimal len ++ ascii "] " ++ cstr key

def registerInfo (t : MuTelemetry) (key value : Bytes) : Encoder (Bool × MuTelemetry) :=
  t.registerKeyed .I [] (infoKey value.length key) value

def registerInfoMulti (t : MuTelemetry) (key value : Bytes) (isContinued : Bool) :
    Encoder (Bool × MuTelemetry) :=
  t.registerKeyed .M [if isContinued then 1 else 0] (infoKey value.length key) value

def formatText (typeName fields : Bytes) : Bytes :=
  typeName ++ ascii ":uint64_t timestamp;" ++ fields

def registerDataFormat (t : MuTelemetry) (typeName fields : Bytes) :
    Encoder (Bool × MuTelemetry) := do
  if !t.isEnabled then return (true, t)
  let format := formatText typeName fields
  let mF ← write (zeros 1503) 2 [ULogMessageType.F.code]
  let (mF, formatLen) ← snprintf mF 3 format.length (cstr format)
  -- `int` against `size_t`
  assert (formatLen % 2 ^ 64 = format.length)
  let msgSize := 1503 - 1500 + (← toSize formatLen)
  return (true, t.toIo (← serialized mF msgSize))

def storeDataIntl (t : MuTelemetry) (data typeName annotation : Bytes) (timestamp : UInt64) :
    Encoder (Bool × MuTelemetry) := do
  if !t.isEnabled then return (true, t)
  let mA ← write (zeros 261) 2 [ULogMessageType.A.code]
  let (msgId, t) := t.getMsgId typeName
  let (multiId, t) := t.getMultiId msgId annotation
  let mA ← write mA 3 [multiId]
  let mA ← write mA 4 (leBytes 2 msgId.toNat)
  let nameLen ← toSize (← toInt typeName.length)
  let mA ← write mA 6 (← read (typeName ++ [0]) 0 nameLen)
  let mA ← serialized mA (261 - 255 + nameLen)
  let mD ← write (zeros 1505) 2 [ULogMessageType.D.code]
  let mD ← write mD 3 (leBytes 2 msgId.toNat)
  if data.length ≤ 1500 then
    let mD ← write mD 5 (leBytes 8 timestamp.toNat)
    let mD ← write mD 13 (← read data 8 (← sub data.length 8))
    return (true, t.toIo (mA ++ (← serialized mD (1505 - 1500 + data.length))))
  else return (false, t)

def storeMessage (t : MuTelemetry) (message : Bytes) (level : ULogLevel) (timestamp : UInt64) :
    Encoder (Bool × MuTelemetry) := do
  if !t.isEnabled then return (true, t)
  if 1500 < message.length + 1 then return (false, t)
  let mL ← write (zeros 1512) 2 [ULogMessageType.L.code]
  let mL ← write mL 3 [level.code]
  let mL ← write mL 4 (leBytes 8 timestamp.toNat)
  let (mL, len) ← snprintf mL 12 1500 (cstr message)
  let msgSize := 1512 - 1500 + (← toSize len)
  return (true, t.toIo (← serialized mL msgSize))

-- ---------------------------------------------------------------------------
-- Calls
-- ---------------------------------------------------------------------------

end MuTelemetry

/-- A public call with its arguments; `store_data` has serialized its data and
read the clock. -/
inductive Call
  | registerParamInt (key : Bytes) (value : Int32)
  | registerParamFloat (key : Bytes) (value : Float32)
  | registerInfo (key value : Bytes)
  | registerInfoMulti (key value : Bytes) (isContinued : Bool)
  | registerDataFormat (typeName fields : Bytes)
  | storeData (data typeName annotation : Bytes) (timestamp : UInt64)
  | storeMessage (message : Bytes) (level : ULogLevel) (timestamp : UInt64)

def MuTelemetry.call (t : MuTelemetry) : Call → Encoder (Bool × MuTelemetry)
  | .registerParamInt key value => t.registerParamInt key value
  | .registerParamFloat key value => t.registerParamFloat key value
  | .registerInfo key value => t.registerInfo key value
  | .registerInfoMulti key value isContinued => t.registerInfoMulti key value isContinued
  | .registerDataFormat typeName fields => t.registerDataFormat typeName fields
  | .storeData data typeName annotation timestamp =>
    t.storeDataIntl data typeName annotation timestamp
  | .storeMessage message level timestamp => t.storeMessage message level timestamp

end Mutelemetry.Telemetry
