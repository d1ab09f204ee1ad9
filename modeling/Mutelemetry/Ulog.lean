import Mutelemetry.Lib.Bytes

/-!
# ULog messages on the wire

The packed structs of `mutelemetry_ulog.h`, as far as a function of the model
reads or writes them, and the sizes `sizeof` gives for them.
-/

namespace Mutelemetry.Ulog

open ByteString

inductive ULogLevel
  | emerg | alert | crit | err | warning | notice | info | debug
  deriving DecidableEq, Repr

def ULogLevel.code : ULogLevel → UInt8
  | .emerg => 0 | .alert => 1 | .crit => 2 | .err => 3
  | .warning => 4 | .notice => 5 | .info => 6 | .debug => 7

inductive ULogMessageType
  | B | I | M | F | P | A | D | L | S | O | R
  deriving DecidableEq, Repr

namespace ULogMessageType

def code : ULogMessageType → UInt8
  | B => 66 | I => 73 | M => 77 | F => 70 | P => 80 | A => 65
  | D => 68 | L => 76 | S => 83 | O => 79 | R => 82

/-- The cast `ULogMessageType(hdr->type_)`; a byte that names no message type
falls to the `default` branch of the switches. -/
def ofCode : UInt8 → Option ULogMessageType
  | 66 => some B | 73 => some I | 77 => some M | 70 => some F | 80 => some P | 65 => some A
  | 68 => some D | 76 => some L | 83 => some S | 79 => some O | 82 => some R
  | _ => none

@[simp] theorem ofCode_code (t : ULogMessageType) : ofCode t.code = some t := by
  cases t <;> rfl

theorem code_of_ofCode (h : ofCode c = some t) : t.code = c := by
  unfold ofCode at h
  split at h <;> cases h <;> rfl

end ULogMessageType

structure ULogMessageHeader where
  size : UInt16
  type : UInt8
  deriving DecidableEq, Repr

def ULogMessageHeader.sizeOf : Nat := 3

def ULogMessageHeader.bytes (h : ULogMessageHeader) : Bytes :=
  leBytes 2 h.size.toNat ++ [h.type]

@[simp] theorem ULogMessageHeader.length_bytes (h : ULogMessageHeader) : h.bytes.length = 3 := by
  simp [bytes]

/-- One message: a header and a body of the size it gives. -/
def frame (t : ULogMessageType) (body : Bytes) : Bytes :=
  (ULogMessageHeader.mk (UInt16.ofNat body.length) t.code).bytes ++ body

@[simp] theorem length_frame (t : ULogMessageType) (body : Bytes) :
    (frame t body).length = 3 + body.length := by
  simp [frame]

/-- A buffer that is exactly one message. -/
def IsFrame (buf : Bytes) : Prop :=
  ∃ t body, body.length < 2 ^ 16 ∧ buf = frame t body

def magic : Bytes := [85, 76, 111, 103, 0x01, 0x12, 0x35]

def fileHeader (timestamp : UInt64) : Bytes := magic ++ [0x01] ++ leBytes 8 timestamp.toNat

def checkUlogDataBegin (buffer : Bytes) : Bool := buffer[2]? = some ULogMessageType.A.code

theorem checkUlogDataBegin_frame (t : ULogMessageType) (body rest : Bytes) :
    checkUlogDataBegin (frame t body ++ rest) = (t = .A : Bool) := by
  have h : (frame t body ++ rest)[2]? = some t.code := by
    simp [frame, ULogMessageHeader.bytes, leBytes]
  rw [checkUlogDataBegin, h]
  cases t <;> rfl

end Mutelemetry.Ulog
