import Mutelemetry.Lib.Lockstep
import Mutelemetry.Parse.Step

/-!
# The builds of the parser

`RELAXED_STATE_MACHINE` and `KEEP_DATA` are commented out at the head of the
parser. Here they are the fields of a `Build`, and the functions that look at
them take one; the others are those of the default build, which is the parser
modelled before.
-/

namespace Mutelemetry.Parse

open ByteString Stateful Ulog

structure Build where
  relaxedStateMachine : Bool
  keepData : Bool
  deriving DecidableEq, Repr

namespace Build

def default : Build := ⟨false, false⟩

/-- `next_state` before the message is looked at, and the state a message the
parser does not take leads to. -/
def refused (b : Build) (state : ParseState) : ParseState :=
  if b.relaxedStateMachine then state else .invalid

/-- `assign(1, value)`, or `push_back(value)`. -/
def keep (b : Build) (values : List α) (value : α) : List α :=
  if b.keepData then values ++ [value] else [value]

-- ---------------------------------------------------------------------------
-- Header, flags and definitions
-- ---------------------------------------------------------------------------

def parseHeader (b : Build) (buffer : Bytes) (pos : Nat) : ParseM ParseState := do
  match ← lift (readFrom buffer pos) with
  | some timestamp =>
    modify fun p => { p with startTime := some timestamp }
    return .flags
  | none => return b.refused (← get).state

def parseFlags (b : Build) (buffer : Bytes) (pos : Nat) : ParseM ParseState := do
  if (← lift (headerType buffer pos)) = some .B then lift (flagsState buffer pos)
  else return b.refused (← get).state

def parseFormat (b : Build) (buffer : Bytes) (message : Nat) (msgSize : UInt16) :
    ParseM ParseState := do
  let text ← lift (fetch buffer message msgSize.toNat)
  match ← lift (parseFormatText text) with
  | none => return b.refused (← get).state
  | some format =>
    modify fun p => { p with formats := p.formats.insert format.name format }
    return (← get).state

def parseParam (b : Build) (buffer : Bytes) (message : Nat) : ParseM ParseState := do
  match ← lift (readParameter buffer message) with
  | none => return b.refused (← get).state
  | some param =>
    modify fun p => { p with parameters := p.parameters ++ [param] }
    return (← get).state

-- ---------------------------------------------------------------------------
-- Data
-- ---------------------------------------------------------------------------

def setColumn (b : Build) (timeseries : Timeseries) (i : Nat) (value : Float) : Timeseries :=
  { timeseries with
    data := timeseries.data.modify i fun (path, values) => (path, b.keep values value) }

def storeValue (b : Build) (value : Float) : Decode Unit := do
  let c ← get
  if c.index < c.timeseries.data.length then
    set { c with timeseries := b.setColumn c.timeseries c.index value, index := c.index + 1 }
  else throw .vectorIndex

def parseDataIntl (b : Build) (formats : Formats) (buffer : Bytes) :
    (depth : Nat) → Format → Decode Unit
  | 0, _ => throw .diverges
  | depth + 1, format =>
    format.fields.forM fun field =>
      if field.isPadding then skip field.arraySize
      else (List.range field.arraySize.toNat).forM fun _ =>
        if field.type = .other then
          match formats.lookup field.otherTypeId with
          | none => throw .outOfRange
          | some child => do
            skip 8
            parseDataIntl b formats buffer depth child
        else do
          let value ← readValue buffer field.type
          b.storeValue value

def stamp (b : Build) (timeseries : Timeseries) (tval : UInt64) : Timeseries :=
  { timeseries with timestamps := b.keep timeseries.timestamps tval }

def parseData (b : Build) (buffer : Bytes) (message : Nat) : ParseM ParseState := do
  let msgId ← lift (readUInt16 buffer message)
  let p ← get
  match p.subscriptions.lookup msgId with
  | none => return .definitionOrData
  | some sub =>
    let tsName := p.seriesName sub
    let timeseries ← lift (p.seriesFor sub)
    insertSeries tsName timeseries
    let tval ← lift (readUInt64 buffer (message + 2))
    let format ← lift (p.formatOf sub)
    match (b.parseDataIntl p.formats buffer p.formats.keys.length format).run
        ⟨b.stamp timeseries tval, ↑(message + 10), 0⟩ with
    | .error fault c =>
      modify (·.setSeries tsName c.timeseries)
      throw fault
    | .ok _ c =>
      modify (·.setSeries tsName c.timeseries)
      let data ← lift (c.timeseries.getLatestData tsName)
      modify (·.handleData data)
      return .definitionOrData

def parseAddData (b : Build) (buffer : Bytes) (pos : Nat) : ParseM ParseState := do
  let size ← lift (headerSize buffer pos)
  let nextState ← parseAdd buffer (pos + 3) size
  let hdr := pos + 3 + size.toNat
  if ← dataBehind buffer hdr then b.parseData buffer (hdr + 3) else return nextState

/-- `message_logs_` grows where the data is not kept. -/
def parseLogged (b : Build) (buffer : Bytes) (message : Nat) (msgSize : UInt16) :
    ParseM ParseState := do
  let msgLog ← lift (readLog buffer message msgSize)
  modify fun p => { p with
    logCalls := p.logCalls ++ [msgLog]
    messageLogs := if b.keepData then p.messageLogs else p.messageLogs ++ [msgLog] }
  return .definitionOrData

-- ---------------------------------------------------------------------------
-- The state machine
-- ---------------------------------------------------------------------------

def parseDefinition (b : Build) (buffer : Bytes) (pos : Nat) : ParseM ParseState := do
  let message := pos + 3
  match ← lift (headerType buffer pos) with
  | some .I => parseInfo buffer message (← lift (headerSize buffer pos))
  | some .M => parseMulti
  | some .F => b.parseFormat buffer message (← lift (headerSize buffer pos))
  | some .P => b.parseParam buffer message
  | some .A => b.parseAddData buffer pos
  | _ => return b.refused (← get).state

def parseDataSection (b : Build) (buffer : Bytes) (pos : Nat) : ParseM ParseState := do
  let message := pos + 3
  match ← lift (headerType buffer pos) with
  | some .A => b.parseAddData buffer pos
  | some .D => b.parseData buffer message
  | some .L => b.parseLogged buffer message (← lift (headerSize buffer pos))
  | some .I => parseInfo buffer message (← lift (headerSize buffer pos))
  | some .M => parseMulti
  | some .P => b.parseParam buffer message
  | some .S | some .O => return .definitionOrData
  | some .R => parseRemove buffer message
  | _ => return b.refused (← get).state

/-- The assertions of `parse` are those of the strict machine. -/
def assertState (b : Build) (state expected : ParseState) : ParseM ParseState :=
  if b.relaxedStateMachine then pure state else Parse.assertState state expected

def handle (b : Build) (state : ParseState) (buffer : Bytes) (pos : Nat) : ParseM ParseState :=
  match state with
  | .header => do b.assertState (← b.parseHeader buffer pos) .flags
  | .flags => do b.assertState (← b.parseFlags buffer pos) .definition
  | .definition => b.parseDefinition buffer pos
  | .definitionOrData => b.parseDataSection buffer pos
  | .invalid => pure .invalid

def parse (b : Build) (buffer : Bytes) (pos : Nat) : ParseM Bool := do
  let newState ← b.handle (← get).state buffer pos
  modify fun p => { p with state := newState }
  return newState ≠ .invalid

def checkUlogValid (b : Build) (buffer : Bytes) : ParseM Bool := do
  let valid ← b.parse buffer 0
  if valid && checkUlogDataBegin buffer then
    let size ← lift (headerSize buffer 0)
    b.parse buffer (3 + size.toNat)
  else return valid

-- ---------------------------------------------------------------------------
-- The default build
-- ---------------------------------------------------------------------------

theorem parseDataIntl_default (formats : Formats) (buffer : Bytes) (depth : Nat) (format : Format) :
    default.parseDataIntl formats buffer depth format =
      Parse.parseDataIntl formats buffer depth format := by
  induction depth generalizing format with
  | zero => rfl
  | succ depth ih =>
    simp only [parseDataIntl, Parse.parseDataIntl, ih]
    rfl

theorem parseData_default (buffer : Bytes) (message : Nat) :
    default.parseData buffer message = Parse.parseData buffer message := by
  funext p
  change _ = parseDataTo p.formats.keys.length buffer message p
  simp only [parseData, parseDataTo, parseDataIntl_default]
  cases readUInt16 buffer message with
  | error | ok => rfl

theorem parseAddData_default (buffer : Bytes) (pos : Nat) :
    default.parseAddData buffer pos = Parse.parseAddData buffer pos := by
  simp only [parseAddData, parseData_default]
  rfl

theorem parseFlags_default (buffer : Bytes) (pos : Nat) :
    default.parseFlags buffer pos = Parse.parseFlags buffer pos := by
  simp only [parseFlags, Parse.parseFlags, flagsState]
  cases headerType buffer pos with
  | error fault => rfl
  | ok type =>
    by_cases ht : type = some .B
    · subst ht
      rfl
    · simp only [ok_bind, if_neg ht]
      exact if_neg ht

theorem handle_default (state : ParseState) (buffer : Bytes) (pos : Nat) :
    default.handle state buffer pos = Parse.handle state buffer pos := by
  cases state with
  | header => rfl
  | flags =>
    simp only [handle, parseFlags_default]
    rfl
  | definition =>
    simp only [handle, parseDefinition, parseAddData_default]
    rfl
  | definitionOrData =>
    simp only [handle, parseDataSection, parseAddData_default, parseData_default]
    rfl
  | invalid => rfl

/-- The parser modelled before is this build. -/
theorem parse_default (buffer : Bytes) (pos : Nat) :
    default.parse buffer pos = Parse.parse buffer pos := by
  simp only [parse, handle_default]
  rfl

theorem checkUlogValid_default (buffer : Bytes) :
    default.checkUlogValid buffer = Parse.checkUlogValid buffer := by
  simp only [checkUlogValid, parse_default]
  rfl

end Build

end Mutelemetry.Parse
