import Mutelemetry.Lib.Bytes
import Mutelemetry.Lib.Stateful

/-!
# Checked buffer operations

Buffers of a fixed size and the narrowings of machine integers. A write or a
read outside a buffer and a failed assertion stop the computation; a size that
wraps does not, but is remembered in the state, which is `true` as long as
every size so far is the one the mathematics gives.
-/

namespace Checked

open ByteString Stateful

inductive Stop
  | assertion | outOfBounds
  deriving DecidableEq, Repr

abbrev Encoder := EStateM Stop Bool

def note (exact : Bool) : Encoder Unit := modify (· && exact)

def assert (holds : Bool) : Encoder Unit := if holds then pure () else throw .assertion

def write (buf : Bytes) (pos : Nat) (src : Bytes) : Encoder Bytes :=
  match overlay buf pos src with
  | some buf => pure buf
  | none => throw .outOfBounds

def read (buf : Bytes) (pos n : Nat) : Encoder Bytes :=
  match window buf pos n with
  | some bs => pure bs
  | none => throw .outOfBounds

def sub (a b : Nat) : Encoder Nat := do
  note (b ≤ a)
  pure (if b ≤ a then a - b else a + 2 ^ 64 - b)

def toUInt8 (n : Int) : Encoder UInt8 := do
  note (0 ≤ n && n < 2 ^ 8)
  pure (.ofInt n)

def toUInt16 (n : Nat) : Encoder UInt16 := do
  note (n < 2 ^ 16)
  pure (.ofNat n)

def toInt (n : Nat) : Encoder Int := do
  note (n < 2 ^ 31)
  pure ((n : Int).bmod (2 ^ 32))

def toSize (n : Int) : Encoder Nat := do
  note (0 ≤ n)
  pure (n % 2 ^ 64).toNat

/-- `snprintf` of a text into a buffer at `pos`, `size` bytes with the closing
NUL. The result is the length of the whole text, -1 when that is no `int`. -/
def snprintf (buf : Bytes) (pos size : Nat) (text : Bytes) : Encoder (Bytes × Int) := do
  let buf ← write buf pos (if size = 0 then [] else text.take (size - 1) ++ [0])
  pure (buf, if text.length < 2 ^ 31 then text.length else -1)

-- ---------------------------------------------------------------------------
-- Rules
-- ---------------------------------------------------------------------------

@[simp] theorem run_note (exact e : Bool) : (note exact).run e = .ok () (e && exact) := (rfl)

@[simp] theorem run_assert_true (e : Bool) : (assert true).run e = .ok () e := (rfl)

@[simp] theorem run_assert_false (e : Bool) : (assert false).run e = .error .assertion e := (rfl)

theorem run_write {buf : Bytes} (pre old post : Bytes) (hbuf : buf = pre ++ (old ++ post))
    (hpos : pos = pre.length) (hlen : old.length = src.length) (e : Bool) :
    (write buf pos src).run e = .ok (pre ++ (src ++ post)) e := by
  have hle : pos + src.length ≤ buf.length := by
    simp only [hbuf, hpos, List.length_append]
    omega
  rw [write, overlay_of_le hle, hbuf, hpos]
  simp [List.drop_append, ← hlen]

theorem run_read {buf : Bytes} (pre post : Bytes) (hbuf : buf = pre ++ post)
    (hlen : pre.length = n) (e : Bool) : (read buf 0 n).run e = .ok pre e := by
  have h : window buf 0 n = some pre := by
    rw [hbuf, ← hlen]
    simp [window]
  rw [read, h]
  rfl

theorem run_read_take {buf : Bytes} (h : n ≤ buf.length) (e : Bool) :
    (read buf 0 n).run e = .ok (buf.take n) e :=
  run_read (buf.take n) (buf.drop n) (List.take_append_drop n buf).symm (by simp [h]) e

theorem run_read_rest {buf : Bytes} (h : pos ≤ buf.length) (e : Bool) :
    (read buf pos (buf.length - pos)).run e = .ok (buf.drop pos) e := by
  have hw : window buf pos (buf.length - pos) = some (buf.drop pos) := by
    rw [window_isSome (by omega), List.take_of_length_le (by simp)]
  rw [read, hw]
  rfl

theorem run_read_of_lt {buf : Bytes} (h : buf.length < pos + n) (e : Bool) :
    (read buf pos n).run e = .error .outOfBounds e := by
  rw [read, window, if_neg (by omega)]
  rfl

theorem run_write_of_lt {buf src : Bytes} (h : buf.length < pos + src.length) (e : Bool) :
    (write buf pos src).run e = .error .outOfBounds e := by
  rw [write, overlay_of_lt h]
  rfl

theorem run_snprintf {buf text : Bytes} (pre old post : Bytes) (hbuf : buf = pre ++ (old ++ post))
    (hpos : pos = pre.length) (hsize : 0 < size)
    (hlen : old.length = (text.take (size - 1)).length + 1) (e : Bool) :
    (snprintf buf pos size text).run e =
      .ok (pre ++ ((text.take (size - 1) ++ [0]) ++ post),
        if text.length < 2 ^ 31 then text.length else -1) e := by
  have hw : (write buf pos (text.take (size - 1) ++ [0])).run e =
      .ok (pre ++ ((text.take (size - 1) ++ [0]) ++ post)) e :=
    run_write pre old post hbuf hpos (by simpa using hlen) e
  rw [snprintf, if_neg hsize.ne', run_seq, hw]
  rfl

theorem run_snprintf_of_lt {buf text : Bytes} (hsize : 0 < size)
    (h : buf.length < pos + ((text.take (size - 1)).length + 1)) (e : Bool) :
    (snprintf buf pos size text).run e = .error .outOfBounds e := by
  have hw : (write buf pos (text.take (size - 1) ++ [0])).run e = .error .outOfBounds e :=
    run_write_of_lt (by simpa using h) e
  rw [snprintf, if_neg hsize.ne', run_seq, hw]

@[simp] theorem run_toUInt8 (n : Int) (e : Bool) :
    (toUInt8 n).run e = .ok (.ofInt n) (e && (0 ≤ n && n < 2 ^ 8)) := (rfl)

@[simp] theorem run_toUInt16 (n : Nat) (e : Bool) :
    (toUInt16 n).run e = .ok (.ofNat n) (e && n < 2 ^ 16) := (rfl)

@[simp] theorem run_toInt (n : Nat) (e : Bool) :
    (toInt n).run e = .ok ((n : Int).bmod (2 ^ 32)) (e && n < 2 ^ 31) := (rfl)

@[simp] theorem run_toSize (n : Int) (e : Bool) :
    (toSize n).run e = .ok (n % 2 ^ 64).toNat (e && 0 ≤ n) := (rfl)

theorem run_toSize_natCast {n : Nat} (h : n < 2 ^ 64) (e : Bool) : (toSize n).run e = .ok n e := by
  have hn : ((n : Int) % 2 ^ 64).toNat = n := by omega
  rw [run_toSize, hn]
  simp

theorem run_sub (a b : Nat) (e : Bool) :
    (sub a b).run e = .ok (if b ≤ a then a - b else a + 2 ^ 64 - b) (e && b ≤ a) := (rfl)

@[simp] theorem run_sub_of_le (h : b ≤ a) (e : Bool) : (sub a b).run e = .ok (a - b) e := by
  simp [run_sub, h]

/-- A subtraction that wraps gives more than it subtracts from. -/
theorem run_sub_of_lt (h : a < b) (hb : b ≤ 2 ^ 64) (e : Bool) :
    ∃ n, a ≤ n ∧ (sub a b).run e = .ok n false := by
  refine ⟨a + 2 ^ 64 - b, by omega, ?_⟩
  rw [run_sub, if_neg (by omega), decide_eq_false (by omega), Bool.and_false]

end Checked
