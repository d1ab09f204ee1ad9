import Mathlib.Logic.Function.Basic
import Mutelemetry.Lib.Bytes
import Mutelemetry.Lib.Transition

/-!
# The file logger

`MutelemetryLogger` drains the log queue into the current one of eight pooled
buffers and hands a full or an old buffer to the I/O worker. The embedding is
a machine whose program counter stands between two accesses to shared data;
the clock, `try_lock`, a spurious failure of the weak exchange and a write
error are chosen by the environment of the step. `USE_POST_FUNCTION_ON_IO` is
undefined, so the worker runs inside the call that starts it.
-/

namespace Mutelemetry.Logger

open ByteString

-- ---------------------------------------------------------------------------
-- Buffers
-- ---------------------------------------------------------------------------

/-- `DataBuffer`. `addStarted` is a reading of the system clock in
nanoseconds. -/
structure DataBuffer where
  addStarted : Int
  dataSize : Nat
  isFull : Bool
  buffer : List Bytes
  deriving DecidableEq, Repr

namespace DataBuffer

def maxDataSize : Nat := 4096

def new : DataBuffer := ⟨0, 0, false, []⟩

def hasData (b : DataBuffer) : Bool := 0 < b.dataSize

def add (b : DataBuffer) (now : Int) (dp : Bytes) : DataBuffer where
  addStarted := if b.hasData then b.addStarted else now
  isFull := if maxDataSize ≤ dp.length + b.dataSize then true else b.isFull
  dataSize := b.dataSize + dp.length
  buffer := b.buffer ++ [dp]

/-- At least one whole second, counted towards zero, since the first message. -/
def canStartIo (b : DataBuffer) (now : Int) : Bool :=
  b.hasData && 1 ≤ (now - b.addStarted).tdiv 1000000000

def data (b : DataBuffer) : Bytes := b.buffer.flatten

def clear (b : DataBuffer) : DataBuffer := { b with buffer := [], dataSize := 0, isFull := false }

end DataBuffer

-- ---------------------------------------------------------------------------
-- The logger's state
-- ---------------------------------------------------------------------------

/-- The log file: what `file_` reports and the bytes on disk. -/
structure File where
  isOpen : Bool
  bad : Bool
  content : Bytes
  deriving DecidableEq, Repr

inductive Crash
  | nullBuffer | nullQueue | assertion
  deriving DecidableEq, Repr

inductive Pc
  | idle
  /-- At `while (!data_queue_->empty())`. -/
  | loop
  /-- `io_idx` read, at `if (io_idx->full())`. -/
  | loaded (ioIdx : Fin 8)
  /-- `start_io_worker(io_idx, do_flush)` entered. -/
  | worker (dbp : Fin 8) (doFlush : Bool)
  /-- `result` copied and the buffer cleared. -/
  | stacking (dbp : Fin 8) (doFlush : Bool) (result : Bytes)
  /-- The buffer is on the stack, `result` not yet written. -/
  | writing (doFlush : Bool) (result : Bytes)
  /-- The worker of a full buffer returned, `io_idx` to be read again. -/
  | reload
  /-- At `data_queue_->dequeue()`. -/
  | fetch (ioIdx : Fin 8)
  /-- After the loop, at `can_start_io`. -/
  | timed
  | crashed (c : Crash)
  deriving DecidableEq, Repr

/-- `MutelemetryLogger`. `dataQueue` tells whether `data_queue_` is non-null;
the queue itself belongs to `MuTelemetry` and outlives it. The stack's top is
the head of the list. -/
structure MutelemetryLogger where
  running : Bool
  dataQueue : Bool
  queue : List Bytes
  file : File
  memPool : Fin 8 → DataBuffer
  poolStackedIndex : List (Fin 8)
  currIdx : Option (Fin 8)
  pc : Pc

def MutelemetryLogger.new : MutelemetryLogger where
  running := false
  dataQueue := false
  queue := []
  file := ⟨false, false, []⟩
  memPool := fun _ => .new
  poolStackedIndex := [7, 6, 5, 4, 3, 2, 1]
  currIdx := some 0
  pc := .idle

/-- What one step of `main_loop` meets: the clock, whether `try_lock`
succeeds, whether the weak exchange is spared a spurious failure, and after
how many bytes a write reports a bad file, if it does. -/
structure Env where
  now : Int
  tryLock : Bool
  exchange : Bool
  badAfter : Option Nat
  deriving DecidableEq, Repr

inductive Event
  | enqueue (dp : Bytes)
  | call
  | step (env : Env)
  | init (opens : Bool)
  | start
  | stop
  | release (env : Env)
  | releaseOnError
  deriving DecidableEq, Repr

-- ---------------------------------------------------------------------------
-- The I/O worker
-- ---------------------------------------------------------------------------

/-- `write`: false on a bad file. A stream that is closed or already bad takes
no byte. -/
def File.write (f : File) (result : Bytes) (env : Env) : File × Bool :=
  if f.isOpen && !f.bad then
    match env.badAfter with
    | none => ({ f with content := f.content ++ result }, true)
    | some n => ({ f with content := f.content ++ result.take n, bad := true }, false)
  else ({ f with bad := true }, false)

namespace MutelemetryLogger

def setBuffer (l : MutelemetryLogger) (i : Fin 8) (b : DataBuffer) : MutelemetryLogger :=
  { l with memPool := Function.update l.memPool i b }

/-- `release(true)`, as the worker calls it on a bad file: the buffers are left alone. -/
def releaseOnError (l : MutelemetryLogger) : MutelemetryLogger :=
  { l with file := { l.file with isOpen := false }, dataQueue := false }

def workerCopy (l : MutelemetryLogger) (dbp : Fin 8) : Bytes × MutelemetryLogger :=
  ((l.memPool dbp).data, l.setBuffer dbp (l.memPool dbp).clear)

def workerPush (l : MutelemetryLogger) (dbp : Fin 8) : MutelemetryLogger :=
  { l with poolStackedIndex := dbp :: l.poolStackedIndex }

/-- The write and, on a bad file, `release(true)`. A flush moves no byte of
the model. -/
def workerWrite (l : MutelemetryLogger) (result : Bytes) (env : Env) : MutelemetryLogger :=
  match l.file.write result env with
  | (file, true) => { l with file := file }
  | (file, false) => releaseOnError { l with file := file }

/-- `start_io_worker` as one call, for `release`. -/
def startIoWorker (l : MutelemetryLogger) (dbp : Fin 8) (env : Env) : MutelemetryLogger :=
  let (result, l) := l.workerCopy dbp
  (l.workerPush dbp).workerWrite result env

-- ---------------------------------------------------------------------------
-- `main_loop`
-- ---------------------------------------------------------------------------

inductive Swap
  | noLock
  | giveUp
  | swapped (l : MutelemetryLogger)

/-- The section both swap sites share, from `try_lock` to `unlock`. -/
def swap (l : MutelemetryLogger) (ioIdx : Fin 8) (env : Env) : Swap :=
  if env.tryLock then
    match l.poolStackedIndex with
    | [] => .giveUp
    | top :: rest =>
      if env.exchange && l.currIdx = some ioIdx then
        .swapped { l with currIdx := some top, poolStackedIndex := rest }
      else .giveUp
  else .noLock

def swapDone (l : MutelemetryLogger) (ioIdx : Fin 8) (doFlush : Bool) : MutelemetryLogger :=
  match l.currIdx with
  | none => { l with pc := .crashed .nullBuffer }
  | some top =>
    if (l.memPool top).dataSize = 0 then { l with pc := .worker ioIdx doFlush }
    else { l with pc := .crashed .assertion }

def mainLoop (l : MutelemetryLogger) (env : Env) : Option MutelemetryLogger :=
  match l.pc with
  | .idle | .crashed _ => none
  | .loop =>
    if l.dataQueue then
      if l.queue.isEmpty then some { l with pc := .timed }
      else match l.currIdx with
        | some ioIdx => some { l with pc := .loaded ioIdx }
        | none => some { l with pc := .crashed .nullBuffer }
    else some { l with pc := .crashed .nullQueue }
  | .loaded ioIdx =>
    if (l.memPool ioIdx).isFull then
      match l.swap ioIdx env with
      | .noLock => some { l with pc := .loop }
      | .giveUp => some { l with pc := .idle }
      | .swapped l => some (l.swapDone ioIdx false)
    else some { l with pc := .fetch ioIdx }
  | .worker dbp doFlush =>
    let (result, l) := l.workerCopy dbp
    some { l with pc := .stacking dbp doFlush result }
  | .stacking dbp doFlush result =>
    some { l.workerPush dbp with pc := .writing doFlush result }
  | .writing doFlush result =>
    some { l.workerWrite result env with pc := if doFlush then .idle else .reload }
  | .reload =>
    match l.currIdx with
    | some ioIdx => some { l with pc := .fetch ioIdx }
    | none => some { l with pc := .crashed .nullBuffer }
  | .fetch ioIdx =>
    if l.dataQueue then
      match l.queue with
      | [] => none
      | dp :: rest =>
        if dp.length ≤ DataBuffer.maxDataSize then
          some { l.setBuffer ioIdx ((l.memPool ioIdx).add env.now dp) with
            queue := rest, pc := .loop }
        else some { l with queue := rest, pc := .crashed .assertion }
    else some { l with pc := .crashed .nullQueue }
  | .timed =>
    match l.currIdx with
    | none => some { l with pc := .crashed .nullBuffer }
    | some ioIdx =>
      if (l.memPool ioIdx).canStartIo env.now then
        match l.swap ioIdx env with
        | .noLock | .giveUp => some { l with pc := .idle }
        | .swapped l => some (l.swapDone ioIdx true)
      else some { l with pc := .idle }

-- ---------------------------------------------------------------------------
-- Lifecycle
-- ---------------------------------------------------------------------------

/-- `init`; `opens` tells whether the file could be opened. Opening truncates. -/
def init (l : MutelemetryLogger) (opens : Bool) : MutelemetryLogger :=
  if l.running || l.dataQueue then l
  else { l with file := ⟨opens, false, []⟩, dataQueue := opens }

def initResult (l : MutelemetryLogger) (opens : Bool) : Bool := !(l.running || l.dataQueue) && opens

def release (l : MutelemetryLogger) (env : Env) : MutelemetryLogger :=
  if l.file.isOpen then
    match l.currIdx with
    | none => { l with pc := .crashed .nullBuffer }
    | some currIdx =>
      let l := if (l.memPool currIdx).hasData then
          { l.startIoWorker currIdx env with currIdx := none }
        else l
      { l with file := { l.file with isOpen := false }, dataQueue := false }
  else { l with dataQueue := false }

/-- Calls of `main_loop` do not overlap, and `release` comes between two. -/
def step (l : MutelemetryLogger) : Event → Option MutelemetryLogger
  | .enqueue dp => some { l with queue := l.queue ++ [dp] }
  | .call =>
    if l.pc = .idle then some (if l.running then { l with pc := .loop } else l) else none
  | .step env => l.mainLoop env
  | .init opens => if l.pc = .idle then some (l.init opens) else none
  | .start => some { l with running := true }
  | .stop => some { l with running := false }
  | .release env => if l.pc = .idle then some (l.release env) else none
  | .releaseOnError => if l.pc = .idle then some l.releaseOnError else none

end MutelemetryLogger

end Mutelemetry.Logger
