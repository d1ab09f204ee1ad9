import Mathlib.Data.List.AList
import Mutelemetry.Parse.Format

/-!
# Series

What the parser keeps of a message's data: one column for each primitive value
of its format. One recursion through the formats names the columns, another
reads a D payload into them. Both follow the nested formats by name; below a
format that is nested in itself they never end, and `depth`, the number of
formats there are, bounds the nesting of any other.
-/

namespace Mutelemetry.Parse

open ByteString

abbrev Formats := AList fun _ : Bytes => Format

structure Timeseries where
  timestamps : List UInt64
  data : List (Bytes × List Float)

structure MessageData where
  name : Bytes
  timestamp : UInt64
  structuredData : List (Bytes × Float)

def Timeseries.setColumn (timeseries : Timeseries) (i : Nat) (value : Float) : Timeseries :=
  { timeseries with data := timeseries.data.modify i fun (path, _) => (path, [value]) }

/-- `el.second.back()`, with the path. -/
def latestValue (el : Bytes × List Float) : Except Fault (Bytes × Float) :=
  match el.2.getLast? with
  | none => .error .emptyBack
  | some value => .ok (el.1, value)

def Timeseries.getLatestData (timeseries : Timeseries) (name : Bytes) : Except Fault MessageData :=
  match timeseries.timestamps.getLast? with
  | none => .error .emptyBack
  | some timestamp => do
    let structuredData ← timeseries.data.mapM latestValue
    pure { name, timestamp, structuredData }

-- ---------------------------------------------------------------------------
-- Columns
-- ---------------------------------------------------------------------------

/-- `sprintf(buff, ".%02d", i)`, where `buff` has ten bytes. -/
def arraySuffix (arraySize : Int) (i : Nat) : Except Fault Bytes :=
  if 1 < arraySize then
    if (ascii "." ++ decimal02 i).length < 10 then .ok (ascii "." ++ decimal02 i)
    else .error .overflow
  else .ok []

def appendVector (formats : Formats) : (depth : Nat) → Format → Bytes → Except Fault (List Bytes)
  | 0, _, _ => .error .diverges
  | depth + 1, format, pre =>
    format.fields.flatMapM fun field =>
      if field.isPadding then pure []
      else (List.range field.arraySize.toNat).flatMapM fun i => do
        let suffix ← arraySuffix field.arraySize i
        let path := pre ++ ascii "/" ++ field.fieldName ++ suffix
        if field.type = .other then
          match formats.lookup field.otherTypeId with
          | none => .error .outOfRange
          | some child => appendVector formats depth child path
        else pure [path]

def createTimeseries (formats : Formats) (format : Format) : Except Fault Timeseries := do
  let paths ← appendVector formats formats.keys.length format []
  pure ⟨[], paths.map (·, [])⟩

-- ---------------------------------------------------------------------------
-- Values
-- ---------------------------------------------------------------------------

def FormatType.sizeOf : FormatType → Nat
  | .uint8 | .int8 | .char | .bool => 1
  | .uint16 | .int16 => 2
  | .uint32 | .int32 | .float => 4
  | .uint64 | .int64 | .double => 8
  | .other => 0

/-- `static_cast<double>` of a primitive value, from its bytes. -/
def FormatType.toDouble : FormatType → Bytes → Float
  | .uint8, bs => (UInt8.ofNat (leNat bs)).toFloat
  | .int8, bs | .char, bs => (UInt8.ofNat (leNat bs)).toInt8.toFloat
  | .uint16, bs => (UInt16.ofNat (leNat bs)).toFloat
  | .int16, bs => (UInt16.ofNat (leNat bs)).toInt16.toFloat
  | .uint32, bs => (UInt32.ofNat (leNat bs)).toFloat
  | .int32, bs => (UInt32.ofNat (leNat bs)).toInt32.toFloat
  | .uint64, bs => (UInt64.ofNat (leNat bs)).toFloat
  | .int64, bs => (UInt64.ofNat (leNat bs)).toInt64.toFloat
  | .float, bs => (Float32.ofBits (UInt32.ofNat (leNat bs))).toFloat
  | .double, bs => Float.ofBits (UInt64.ofNat (leNat bs))
  -- a `bool` is the byte it is stored in
  | .bool, bs => (UInt8.ofNat (leNat bs)).toFloat
  | .other, _ => 0

def fetch (buffer : Bytes) (message : Int) (n : Nat) : Except Fault Bytes :=
  match if 0 ≤ message then window buffer message.toNat n else none with
  | some bs => .ok bs
  | none => .error .outOfBounds

/-- What `parse_data_intl` changes; `message` counts from the buffer's start. -/
structure Cursor where
  timeseries : Timeseries
  message : Int
  index : Nat

abbrev Decode := EStateM Fault Cursor

def skip (n : Int) : Decode Unit := modify fun c => { c with message := c.message + n }

/-- The cases of the `switch` on a primitive type. -/
def readValue (buffer : Bytes) (type : FormatType) : Decode Float := do
  match fetch buffer (← get).message type.sizeOf with
  | .error fault => throw fault
  | .ok bs =>
    skip type.sizeOf
    pure (type.toDouble bs)

/-- `timeseries.data_[(*index)++].second.assign(1, value)`. -/
def storeValue (value : Float) : Decode Unit := do
  let c ← get
  if c.index < c.timeseries.data.length then
    set { c with timeseries := c.timeseries.setColumn c.index value, index := c.index + 1 }
  else throw .vectorIndex

def parseDataIntl (formats : Formats) (buffer : Bytes) : (depth : Nat) → Format → Decode Unit
  | 0, _ => throw .diverges
  | depth + 1, format =>
    format.fields.forM fun field =>
      if field.isPadding then skip field.arraySize
      else (List.range field.arraySize.toNat).forM fun _ =>
        if field.type = .other then
          match formats.lookup field.otherTypeId with
          | none => throw .outOfRange
          | some child => do
            skip 8
            parseDataIntl formats buffer depth child
        else do
          let value ← readValue buffer field.type
          storeValue value

end Mutelemetry.Parse
