import Mathlib.Data.Finset.Insert
import Mutelemetry.Parse.Series
import Mutelemetry.Ulog

/-!
# The parser

`MutelemetryParser` in its default build: the strict state machine, and only
the latest data kept. A call may be stopped by a fault, and leaves the state as
it was then. The pointers into `formats_` are names in it, the handlers are
lists of what they were called with. A pointer is a position in the buffer.
-/

namespace Mutelemetry.Parse

open ByteString Ulog

inductive ParseState
  | header | flags | definition | definitionOrData | invalid
  deriving DecidableEq, Repr

/-- The `union` is its four bytes. -/
structure Parameter where
  name : Bytes
  value : UInt32
  valType : FormatType
  deriving DecidableEq, Repr

structure Subscription where
  msgId : UInt16
  multiId : UInt8
  messageName : Bytes
  format : Option Bytes
  deriving DecidableEq, Repr

structure MessageLog where
  level : UInt8
  timestamp : UInt64
  msg : Bytes
  deriving DecidableEq, Repr

structure MutelemetryParser where
  state : ParseState
  startTime : Option UInt64
  timeseries : AList fun _ : Bytes => Timeseries
  formats : Formats
  subscriptions : AList fun _ : UInt16 => Subscription
  info : AList fun _ : Bytes => Bytes
  withMultiId : Finset Bytes
  parameters : List Parameter
  messageLogs : List MessageLog
  dataCalls : List MessageData
  logCalls : List MessageLog
  /-- Not in the source: a header was looked for behind the end of a buffer. -/
  strayed : Bool

def MutelemetryParser.new : MutelemetryParser where
  state := .header
  startTime := none
  timeseries := ∅
  formats := ∅
  subscriptions := ∅
  info := ∅
  withMultiId := ∅
  parameters := []
  messageLogs := []
  dataCalls := []
  logCalls := []
  strayed := false

abbrev ParseM := EStateM Fault MutelemetryParser

def lift (x : Except Fault α) : ParseM α :=
  match x with
  | .ok a => pure a
  | .error fault => throw fault

-- ---------------------------------------------------------------------------
-- Reads
-- ---------------------------------------------------------------------------

def readUInt8 (buffer : Bytes) (pos : Nat) : Except Fault UInt8 :=
  (fetch buffer pos 1).map fun bs => .ofNat (leNat bs)

def readUInt16 (buffer : Bytes) (pos : Nat) : Except Fault UInt16 :=
  (fetch buffer pos 2).map fun bs => .ofNat (leNat bs)

def readUInt32 (buffer : Bytes) (pos : Nat) : Except Fault UInt32 :=
  (fetch buffer pos 4).map fun bs => .ofNat (leNat bs)

def readUInt64 (buffer : Bytes) (pos : Nat) : Except Fault UInt64 :=
  (fetch buffer pos 8).map fun bs => .ofNat (leNat bs)

def headerSize (buffer : Bytes) (hdr : Nat) : Except Fault UInt16 := readUInt16 buffer hdr

def headerType (buffer : Bytes) (hdr : Nat) : Except Fault (Option ULogMessageType) :=
  (readUInt8 buffer (hdr + 2)).map ULogMessageType.ofCode

-- ---------------------------------------------------------------------------
-- Header and flags
-- ---------------------------------------------------------------------------

/-- `ULogFileHeader::read_from`: the timestamp behind the right magic bytes. -/
def readFrom (buffer : Bytes) (pos : Nat) : Except Fault (Option UInt64) := do
  if (← fetch buffer pos 7) = magic then
    let _version ← readUInt8 buffer (pos + 7)
    pure (some (← readUInt64 buffer (pos + 8)))
  else pure none

def parseHeader (buffer : Bytes) (pos : Nat) : ParseM ParseState := do
  match ← lift (readFrom buffer pos) with
  | some timestamp =>
    modify fun p => { p with startTime := some timestamp }
    return .flags
  | none => return .invalid

def anySet (buffer : Bytes) : List Nat → Except Fault Bool
  | [] => pure false
  | pos :: rest => do
    if (← readUInt8 buffer pos) ≠ 0 then pure true else anySet buffer rest

def flagsState (buffer : Bytes) (pos : Nat) : Except Fault ParseState := do
  if (← headerType buffer pos) = some .B then
    let message := pos + 3
    let incompatFlags := message + 8
    let first ← readUInt8 buffer incompatFlags
    let hasUnknownIncompatBits ←
      if first &&& ~~~1 ≠ 0 then pure true
      else anySet buffer ((List.range' 1 7).map (incompatFlags + ·))
    if hasUnknownIncompatBits then return .invalid
    if first &&& 1 ≠ 0 then
      let _appendedOffsets ← fetch buffer ↑(message + 16) 24
    return .definition
  else return .invalid

def parseFlags (buffer : Bytes) (pos : Nat) : ParseM ParseState := lift (flagsState buffer pos)

-- ---------------------------------------------------------------------------
-- Definitions
-- ---------------------------------------------------------------------------

def intText (i : Int) : Bytes :=
  if i < 0 then charByte '-' :: decimal i.natAbs else decimal i.natAbs

def zeroFilled (b width n : Nat) : Bytes :=
  let digits := (Nat.toDigits b n).map charByte
  List.replicate (width - digits.length) (charByte '0') ++ digits

def intToHex (i : UInt32) : Bytes := ascii "0x" ++ zeroFilled 16 8 i.toNat

/-- `%f` of a normal IEEE number, from its bits; the sixth digit is rounded to
the nearest, halfway to the even one. -/
def floatText (fractionBits exponentBits bits : Nat) : Bytes :=
  let fraction := 2 ^ fractionBits + bits % 2 ^ fractionBits
  let exponent := bits / 2 ^ fractionBits % 2 ^ exponentBits
  let bias := 2 ^ (exponentBits - 1) - 1 + fractionBits
  let numerator := fraction * 10 ^ 6 * 2 ^ (exponent - bias)
  let denominator := 2 ^ (bias - exponent)
  let floor := numerator / denominator
  let twice := 2 * (numerator % denominator)
  let millionths :=
    if denominator < twice ∨ twice = denominator ∧ floor % 2 = 1 then floor + 1 else floor
  (if bits / 2 ^ (fractionBits + exponentBits) = 1 then [charByte '-'] else []) ++
    decimal (millionths / 10 ^ 6) ++ ascii "." ++ zeroFilled 10 6 (millionths % 10 ^ 6)

/-- The value `parse_info` gives a key of a numeric type. It is read from the
text of the key itself, which begins with the name of the type; so it is a
normal number where it is a `float` or a `double`. -/
def infoNumber (type key rawKey : Bytes) : Bytes :=
  let word n := leNat (rawKey.take n)
  if type = ascii "bool" then decimal (word 1)
  else if type = ascii "uint8_t" then decimal (word 1)
  else if type = ascii "int8_t" then intText (UInt8.ofNat (word 1)).toInt8.toInt
  else if type = ascii "uint16_t" then decimal (word 2)
  else if type = ascii "int16_t" then intText (UInt16.ofNat (word 2)).toInt16.toInt
  else if type = ascii "uint32_t" then
    if (ascii "ver_").isPrefixOf key && (ascii "_release").isSuffixOf key then
      intToHex (.ofNat (word 4))
    else decimal (word 4)
  else if type = ascii "int32_t" then intText (UInt32.ofNat (word 4)).toInt32.toInt
  else if type = ascii "float" then floatText 23 8 (word 4)
  else if type = ascii "double" then floatText 52 11 (word 8)
  else if type = ascii "uint64_t" then decimal (word 8)
  else if type = ascii "int64_t" then intText (UInt64.ofNat (word 8)).toInt64.toInt
  else []

def infoEntry (buffer : Bytes) (message : Nat) (msgSize : UInt16) :
    Except Fault (Bytes × Bytes) := do
  let keyLen ← readUInt8 buffer message
  let rawKey ← fetch buffer ↑(message + 1) keyLen.toNat
  match splitString (charByte ' ') rawKey with
  | type :: key :: _ =>
    if (ascii "char[").isPrefixOf type then
      if msgSize.toNat < keyLen.toNat + 1 then .error .lengthError
      else
        let value ← fetch buffer ↑(message + 1 + keyLen.toNat) (msgSize.toNat - (keyLen.toNat + 1))
        pure (key, value)
    else pure (key, infoNumber type key rawKey)
  | _ => .error .vectorIndex

def parseInfo (buffer : Bytes) (message : Nat) (msgSize : UInt16) : ParseM ParseState := do
  let (key, value) ← lift (infoEntry buffer message msgSize)
  modify fun p => { p with info := if key ∈ p.info then p.info else p.info.insert key value }
  return (← get).state

def parseMulti : ParseM ParseState := do
  return (← get).state

def parseFormat (buffer : Bytes) (message : Nat) (msgSize : UInt16) : ParseM ParseState := do
  let text ← lift (fetch buffer message msgSize.toNat)
  match ← lift (parseFormatText text) with
  | none => return .invalid
  | some format =>
    modify fun p => { p with formats := p.formats.insert format.name format }
    return (← get).state

def parameterType (type : Bytes) : Option FormatType :=
  if type = ascii "int32_t" then some .int32
  else if type = ascii "float" then some .float
  else none

/-- The parameter of a P message, when its key begins with one of the types. -/
def readParameter (buffer : Bytes) (message : Nat) : Except Fault (Option Parameter) := do
  let keyLen ← readUInt8 buffer message
  let key ← fetch buffer ↑(message + 1) keyLen.toNat
  if charByte ' ' ∉ key then return none
  let name := (key.dropWhile (· ≠ charByte ' ')).tail
  match parameterType (key.takeWhile (· ≠ charByte ' ')) with
  | none => return none
  | some valType =>
    let value ← readUInt32 buffer (message + 1 + keyLen.toNat)
    return some { name, value, valType }

def parseParam (buffer : Bytes) (message : Nat) : ParseM ParseState := do
  match ← lift (readParameter buffer message) with
  | none => return .invalid
  | some param =>
    modify fun p => { p with parameters := p.parameters ++ [param] }
    return (← get).state

-- ---------------------------------------------------------------------------
-- Data
-- ---------------------------------------------------------------------------

namespace MutelemetryParser

def formatOf (p : MutelemetryParser) (sub : Subscription) : Except Fault Format :=
  match sub.format.bind p.formats.lookup with
  | some format => .ok format
  | none => .error .nullFormat

def seriesName (p : MutelemetryParser) (sub : Subscription) : Bytes :=
  if sub.messageName ∈ p.withMultiId then
    sub.messageName ++ ascii "." ++ decimal02 sub.multiId.toNat
  else sub.messageName

/-- The subscription of an A message; one that exists is kept. -/
def subscribe (p : MutelemetryParser) (sub : Subscription) : MutelemetryParser := { p with
  subscriptions :=
    if sub.msgId ∈ p.subscriptions then p.subscriptions else p.subscriptions.insert sub.msgId sub
  withMultiId := if 0 < sub.multiId then insert sub.messageName p.withMultiId else p.withMultiId }

/-- The series a subscription's data goes to; a new one has the columns of its format. -/
def seriesFor (p : MutelemetryParser) (sub : Subscription) : Except Fault Timeseries :=
  match p.timeseries.lookup (p.seriesName sub) with
  | some timeseries => .ok timeseries
  | none => p.formatOf sub >>= createTimeseries p.formats

def setSeries (p : MutelemetryParser) (name : Bytes) (timeseries : Timeseries) :
    MutelemetryParser := { p with timeseries := p.timeseries.insert name timeseries }

def handleData (p : MutelemetryParser) (data : MessageData) : MutelemetryParser :=
  { p with dataCalls := p.dataCalls ++ [data] }

end MutelemetryParser

def readSubscription (formats : Formats) (buffer : Bytes) (message : Nat) (msgSize : UInt16) :
    Except Fault Subscription := do
  let multiId ← readUInt8 buffer message
  let msgId ← readUInt16 buffer (message + 1)
  if msgSize.toNat < 3 then throw .lengthError
  let messageName ← fetch buffer ↑(message + 3) (msgSize.toNat - 3)
  let format := if messageName ∈ formats then some messageName else none
  pure { msgId, multiId, messageName, format }

def parseAdd (buffer : Bytes) (message : Nat) (msgSize : UInt16) : ParseM ParseState := do
  let sub ← lift (readSubscription (← get).formats buffer message msgSize)
  modify (·.subscribe sub)
  return .definitionOrData

/-- A series that exists is kept. -/
def insertSeries (tsName : Bytes) (timeseries : Timeseries) : ParseM Unit :=
  modify fun p => if tsName ∈ p.timeseries then p else p.setSeries tsName timeseries

/-- `parse_data(message, msg_size)`, where `parse_data_intl` may go `depth` formats deep. -/
def parseDataTo (depth : Nat) (buffer : Bytes) (message : Nat) : ParseM ParseState := do
  let msgId ← lift (readUInt16 buffer message)
  let p ← get
  match p.subscriptions.lookup msgId with
  | none => return .definitionOrData
  | some sub =>
    let tsName := p.seriesName sub
    let timeseries ← lift (p.seriesFor sub)
    insertSeries tsName timeseries
    let tval ← lift (readUInt64 buffer (message + 2))
    let format ← lift (p.formatOf sub)
    match (parseDataIntl p.formats buffer depth format).run
        ⟨{ timeseries with timestamps := [tval] }, ↑(message + 10), 0⟩ with
    | .error fault c =>
      modify (·.setSeries tsName c.timeseries)
      throw fault
    | .ok _ c =>
      modify (·.setSeries tsName c.timeseries)
      let data ← lift (c.timeseries.getLatestData tsName)
      modify (·.handleData data)
      return .definitionOrData

-- a recursion that comes deeper than there are formats never ends
def parseData (buffer : Bytes) (message : Nat) : ParseM ParseState := do
  parseDataTo (← get).formats.keys.length buffer message

/-- Whether the header behind an A message is that of a D message. -/
def dataBehind (buffer : Bytes) (hdr : Nat) : ParseM Bool :=
  match headerType buffer hdr with
  | .ok type => pure (type = some .D)
  | .error _ => do
    modify fun p => { p with strayed := true }
    pure false

/-- Case A of `parse_definition` and of `parse_data`: the D message behind it
is parsed with it. -/
def parseAddThen (data : Bytes → Nat → ParseM ParseState) (buffer : Bytes) (pos : Nat) :
    ParseM ParseState := do
  let size ← lift (headerSize buffer pos)
  let nextState ← parseAdd buffer (pos + 3) size
  let hdr := pos + 3 + size.toNat
  if ← dataBehind buffer hdr then data buffer (hdr + 3) else return nextState

def parseAddData (buffer : Bytes) (pos : Nat) : ParseM ParseState :=
  parseAddThen parseData buffer pos

def readLog (buffer : Bytes) (message : Nat) (msgSize : UInt16) : Except Fault MessageLog := do
  let level ← readUInt8 buffer message
  let timestamp ← readUInt64 buffer (message + 1)
  if msgSize.toNat < 9 then throw .lengthError
  let msg ← fetch buffer ↑(message + 9) (msgSize.toNat - 9)
  pure { level, timestamp, msg }

def parseLogged (buffer : Bytes) (message : Nat) (msgSize : UInt16) : ParseM ParseState := do
  let msgLog ← lift (readLog buffer message msgSize)
  modify fun p => { p with
    logCalls := p.logCalls ++ [msgLog]
    messageLogs := p.messageLogs ++ [msgLog] }
  return .definitionOrData

def parseRemove (buffer : Bytes) (message : Nat) : ParseM ParseState := do
  let msgId ← lift (readUInt16 buffer message)
  modify fun p => { p with subscriptions := p.subscriptions.erase msgId }
  return .definitionOrData

-- ---------------------------------------------------------------------------
-- The state machine
-- ---------------------------------------------------------------------------

def parseDefinition (buffer : Bytes) (pos : Nat) : ParseM ParseState := do
  let message := pos + 3
  match ← lift (headerType buffer pos) with
  | some .I => parseInfo buffer message (← lift (headerSize buffer pos))
  | some .M => parseMulti
  | some .F => parseFormat buffer message (← lift (headerSize buffer pos))
  | some .P => parseParam buffer message
  | some .A => parseAddData buffer pos
  | _ => return .invalid

/-- `parse_data(buffer)`. -/
def parseDataSection (buffer : Bytes) (pos : Nat) : ParseM ParseState := do
  let message := pos + 3
  match ← lift (headerType buffer pos) with
  | some .A => parseAddData buffer pos
  | some .D => parseData buffer message
  | some .L => parseLogged buffer message (← lift (headerSize buffer pos))
  | some .I => parseInfo buffer message (← lift (headerSize buffer pos))
  | some .M => parseMulti
  | some .P => parseParam buffer message
  | some .S | some .O => return .definitionOrData
  | some .R => parseRemove buffer message
  | _ => return .invalid

def assertState (state expected : ParseState) : ParseM ParseState :=
  if state = expected then pure state else throw .assertion

/-- The `switch` of `parse`. -/
def handle (state : ParseState) (buffer : Bytes) (pos : Nat) : ParseM ParseState :=
  match state with
  | .header => do assertState (← parseHeader buffer pos) .flags
  | .flags => do assertState (← parseFlags buffer pos) .definition
  | .definition => parseDefinition buffer pos
  | .definitionOrData => parseDataSection buffer pos
  | .invalid => pure .invalid

def parse (buffer : Bytes) (pos : Nat) : ParseM Bool := do
  let newState ← handle (← get).state buffer pos
  modify fun p => { p with state := newState }
  return newState ≠ .invalid

def checkUlogValid (buffer : Bytes) : ParseM Bool := do
  let valid ← parse buffer 0
  if valid && checkUlogDataBegin buffer then
    let size ← lift (headerSize buffer 0)
    parse buffer (3 + size.toNat)
  else return valid

end Mutelemetry.Parse
