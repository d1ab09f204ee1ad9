import Mutelemetry.Lib.Bytes

/-!
# Format definitions

The text of an F message: `name:type name;type name;…`, where a type is one of
twelve primitive names or the name of another format, and may have an array
size. A loop that can never end gives the fault `diverges`.
-/

namespace Mutelemetry.Parse

open ByteString

/-- The ways a call of the parser fails to return. `outOfRange` and
`lengthError` are exceptions the caller can catch. -/
inductive Fault
  | outOfRange | lengthError
  | outOfBounds | vectorIndex | nullFormat | overflow | emptyBack | assertion | diverges
  deriving DecidableEq, Repr

inductive FormatType
  | uint8 | uint16 | uint32 | uint64 | int8 | int16 | int32 | int64
  | float | double | bool | char | other
  deriving DecidableEq, Repr

structure Field where
  type : FormatType
  fieldName : Bytes
  otherTypeId : Bytes
  arraySize : Int
  deriving DecidableEq, Repr

structure Format where
  name : Bytes
  fields : List Field
  deriving DecidableEq, Repr

def Field.isPadding (field : Field) : Bool := (ascii "_padding").isPrefixOf field.fieldName

-- ---------------------------------------------------------------------------
-- Splitting
-- ---------------------------------------------------------------------------

/-- `split_string`: the parts between the delimiters; nothing follows the last
delimiter of a text that ends with one. -/
def splitString (delimeter : UInt8) : Bytes → List Bytes
  | [] => []
  | c :: cs =>
    if c = delimeter then [] :: splitString delimeter cs
    else match splitString delimeter cs with
      | [] => [[c]]
      | part :: parts => (c :: part) :: parts

/-- One turn of the loop: `find_first_of` ends the part, or the text does. -/
theorem splitString_eq (d : UInt8) (s : Bytes) (hs : s ≠ []) :
    splitString d s = s.takeWhile (· ≠ d) :: splitString d (s.dropWhile (· ≠ d)).tail := by
  induction s with
  | nil => exact absurd rfl hs
  | cons c cs ih =>
    by_cases hc : c = d
    · simp [splitString, hc]
    · have htake : (c :: cs).takeWhile (· ≠ d) = c :: cs.takeWhile (· ≠ d) := by simp [hc]
      have hdrop : (c :: cs).dropWhile (· ≠ d) = cs.dropWhile (· ≠ d) := by simp [hc]
      rw [splitString, if_neg hc, htake, hdrop]
      cases cs with
      | nil => rfl
      | cons c' cs => rw [ih (by simp)]

-- ---------------------------------------------------------------------------
-- Fields
-- ---------------------------------------------------------------------------

/-- The `starts_with` tests of `parse_format`, in their order. -/
def primitiveTypes : List (Bytes × FormatType) :=
  [(ascii "int8_t", .int8), (ascii "int16_t", .int16), (ascii "int32_t", .int32),
    (ascii "int64_t", .int64), (ascii "uint8_t", .uint8), (ascii "uint16_t", .uint16),
    (ascii "uint32_t", .uint32), (ascii "uint64_t", .uint64), (ascii "double", .double),
    (ascii "float", .float), (ascii "bool", .bool), (ascii "char", .char)]

/-- The type, the name of a nested one, and the view left for the array size. -/
def parseType (fieldType : Bytes) : Except Fault (FormatType × Bytes × Bytes) :=
  match primitiveTypes.find? (·.1.isPrefixOf fieldType) with
  | some (name, type) => .ok (type, [], fieldType.drop name.length)
  | none =>
    if fieldType.getLast? = some (charByte ']') then
      -- `helper` is cut until it ends with '[', and a view that is empty stays so
      if charByte '[' ∈ fieldType then
        let helper := (fieldType.reverse.dropWhile (· ≠ charByte '[')).reverse
        .ok (.other, helper.dropLast, fieldType.dropWhile (· ≠ charByte '['))
      else .error .diverges
    else .ok (.other, fieldType, fieldType)

/-- The digits up to a ']'. The sum is an `int`; behind the view there is a
blank, which is read again and again when no ']' came before it. -/
def parseDigits : Bytes → Int → Except Fault Int
  | [], _ => .error .diverges
  | c :: view, arraySize =>
    if c = charByte ']' then .ok arraySize
    else parseDigits view ((10 * arraySize + c.toInt8.toInt - 48).bmod (2 ^ 32))

def parseArraySize (fieldType : Bytes) : Except Fault Int :=
  match fieldType with
  | [] => .ok 1
  | c :: view =>
    if c = charByte '[' then
      match view with
      | [] => .error .diverges
      | digit :: view => parseDigits view (digit.toInt8.toInt - 48)
    else .ok 1

def parseField (fieldSection : Bytes) : Except Fault Field :=
  match splitString (charByte ' ') fieldSection with
  | fieldType :: fieldName :: _ => do
    let (type, otherTypeId, view) ← parseType fieldType
    let arraySize ← parseArraySize view
    pure { type, fieldName, otherTypeId, arraySize }
  | _ => .error .outOfRange

def Field.isTimestamp (field : Field) : Bool :=
  field.type = .uint64 && field.fieldName = ascii "timestamp"

/-- The body of `parse_format`; `none` for a text without a ':'. -/
def parseFormatText (text : Bytes) : Except Fault (Option Format) :=
  if charByte ':' ∈ text then do
    let name := text.takeWhile (· ≠ charByte ':')
    let fields ← (splitString (charByte ';') (text.dropWhile (· ≠ charByte ':')).tail).mapM
      parseField
    pure (some ⟨name, fields.filter (!·.isTimestamp)⟩)
  else pure none

example : parseFormatText (ascii "DataType1:uint64_t timestamp;float[3] a;Inner[12] b;") =
    .ok (some ⟨ascii "DataType1", [⟨.float, ascii "a", [], 3⟩,
      ⟨.other, ascii "b", ascii "Inner", 12⟩]⟩) := by decide

end Mutelemetry.Parse
