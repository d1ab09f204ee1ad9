import Mutelemetry.Lib.Transition
import Mutelemetry.Ulog

/-!
# The network streamer

`MutelemetryStreamer` is shared by `sync_loop`, `discard_loop`, the periodic
`main_loop` and any number of calls of the two protocol handlers. Each of them
is a program counter here, and one step is one access to what they share: a
load of `state_`, a reading of `seq_`, a compare-exchange, a queue operation,
a message sent. An assertion that fails is recorded and the step goes on as
the code would without it.
-/

namespace Mutelemetry.Network

open ByteString Ulog

-- ---------------------------------------------------------------------------
-- State
-- ---------------------------------------------------------------------------

inductive StreamerState
  | init | connected | sendDef | resendDef | ackRecv | ackWait | running | stopped | unknown
  deriving DecidableEq, Repr

structure SparseAddress where
  groupId : UInt32
  instanceId : UInt32
  deriving DecidableEq, Repr

inductive Command
  | loggingStart | loggingStop | other
  deriving DecidableEq, Repr

/-- A message given to `sendmavmsg`, or, LOGGING_DATA, posted to be given to it. -/
inductive Wire
  | loggingData (targetSystem targetComponent : UInt8) (data : Bytes)
  | loggingDataAcked (targetSystem targetComponent : UInt8) (sequence : UInt16) (data : Bytes)
  | commandAck (command : Command) (accepted : Bool) (target : SparseAddress)
  deriving DecidableEq, Repr

inductive Assertion
  /-- `set_state` took effect. -/
  | exchanged
  /-- `target_system_` and `target_component_` are not zero. -/
  | target
  /-- A definition could be sent. -/
  | definitionSent
  /-- The definition loop knows the state. -/
  | definitionState
  /-- `main_loop` runs in RUNNING or STOPPED. -/
  | mainState
  deriving DecidableEq, Repr

inductive SyncPc
  /-- Collecting definitions. -/
  | collect
  /-- At `while (seq_ < defs_sz)`. -/
  | loop
  /-- `state_` loaded, at the switch. -/
  | loaded (state : StreamerState)
  /-- The definition is sent, before `set_state(state, STATE_ACK_WAIT)`. -/
  | sent (state : StreamerState)
  /-- 1000 ms waited, before `set_state(state, STATE_RESEND_DEF)`. -/
  | timeout
  /-- After `set_state(state, STATE_SEND_DEF)`, before `seq_++`. -/
  | received
  /-- After the loop, before `state_.load()`. -/
  | finalLoad
  /-- Before `set_state(state, STATE_RUNNING)`. -/
  | finalSet (state : StreamerState)
  /-- Before `running_ = true`. -/
  | finalRun
  | exited
  deriving DecidableEq, Repr

inductive DiscardPc
  | waiting | loop | dequeue | exited
  deriving DecidableEq, Repr

/-- Where `main_loop` stands; `st` is the state it loaded when it was called. -/
inductive MainPc
  | idle
  /-- `running_` was true, before `state_.load()`. -/
  | entered
  /-- At `while (!data_queue_->empty())`. -/
  | draining (st : StreamerState)
  | dequeue (st : StreamerState)
  | dequeued (st : StreamerState) (dp : Bytes)
  deriving DecidableEq, Repr

/-- A call of `proto_command_handler` that has loaded `state`. `newState` is
`none` until the command is compared with it. -/
structure CommandCall where
  command : Command
  sa : SparseAddress
  confirmation : Bool
  state : StreamerState
  newState : Option StreamerState
  deriving DecidableEq, Repr

/-- A call of `proto_logging_ack_handler` that has loaded STATE_ACK_WAIT.
`newState` is `none` until `seq_` is read. Nothing looks at `sa`. -/
structure AckCall where
  sa : SparseAddress
  sequence : UInt16
  newState : Option StreamerState
  deriving DecidableEq, Repr

structure MutelemetryStreamer where
  discarding : Bool
  running : Bool
  state : StreamerState
  seq : Nat
  definitions : List Bytes
  targetSystem : UInt8
  targetComponent : UInt8
  syncTimeout : UInt16
  sendCntr : Nat
  skipCntr : Nat
  dataQueue : List Bytes
  /-- Every message sent or posted so far. -/
  wire : List Wire
  /-- Every assertion that failed so far. -/
  failed : List Assertion
  sync : SyncPc
  discard : DiscardPc
  main : MainPc
  commands : List CommandCall
  acks : List AckCall
  deriving DecidableEq, Repr

def MutelemetryStreamer.new (rt : Bool) : MutelemetryStreamer where
  discarding := false
  running := false
  state := .init
  seq := 0
  definitions := []
  targetSystem := 0
  targetComponent := 0
  syncTimeout := 0
  sendCntr := 0
  skipCntr := 0
  dataQueue := []
  wire := []
  failed := []
  sync := .collect
  discard := if rt then .waiting else .exited
  main := .idle
  commands := []
  acks := []

inductive Event
  | enqueue (dp : Bytes)
  | sync
  | discard
  | main
  /-- A COMMAND_LONG arrives and its handler loads `state_`. -/
  | command (command : Command) (sa : SparseAddress) (confirmation : Bool)
  | commandStep (i : Nat)
  /-- A LOGGING_ACK arrives and its handler loads `state_`. -/
  | loggingAck (sa : SparseAddress) (sequence : UInt16)
  | ackStep (i : Nat)
  deriving DecidableEq, Repr

namespace MutelemetryStreamer

-- ---------------------------------------------------------------------------
-- Shared operations
-- ---------------------------------------------------------------------------

def assert (s : MutelemetryStreamer) (holds : Bool) (a : Assertion) : MutelemetryStreamer :=
  if holds then s else { s with failed := s.failed ++ [a] }

def setState (s : MutelemetryStreamer) (old new : StreamerState) : MutelemetryStreamer × Bool :=
  if s.state = old then ({ s with state := new }, true) else (s, false)

def exchange (s : MutelemetryStreamer) (old new : StreamerState) : MutelemetryStreamer :=
  let (s, result) := s.setState old new
  s.assert result .exchanged

/-- `MAVLINK_MSG_LOGGING_DATA_FIELD_DATA_LEN` and
`MAVLINK_MSG_LOGGING_DATA_ACKED_FIELD_DATA_LEN`. -/
def fieldDataLen : Nat := 249

/-- `send_ulog`; `none` when it returns false. The message is on `wire` as soon as
its `sendmavmsg` is posted. -/
def sendUlog (s : MutelemetryStreamer) (data : Bytes) : Option MutelemetryStreamer :=
  if fieldDataLen < data.length then none
  else some { s with
    wire := s.wire ++ [.loggingData s.targetSystem s.targetComponent data] }

def sendUlogAck (s : MutelemetryStreamer) (data : Bytes) (seq : UInt16) :
    Option MutelemetryStreamer :=
  if fieldDataLen < data.length then none
  else some { s with
    wire := s.wire ++ [.loggingDataAcked s.targetSystem s.targetComponent seq data] }

-- ---------------------------------------------------------------------------
-- `sync_loop`
-- ---------------------------------------------------------------------------

/-- The branch of CONNECTED, RESEND_DEF and SEND_DEF, up to `set_state`. -/
def sendDefinition (s : MutelemetryStreamer) (state : StreamerState) :
    Option MutelemetryStreamer :=
  match s.definitions[s.seq]? with
  | none => none
  | some dp =>
    match s.sendUlogAck dp (UInt16.ofNat s.seq) with
    | some s => some { s with syncTimeout := 0, sync := .sent state }
    | none => some { s.assert false .definitionSent with sync := .loop }

def syncLoop (s : MutelemetryStreamer) : Option MutelemetryStreamer :=
  match s.sync with
  | .collect =>
    match s.dataQueue with
    | [] => some s
    | dp :: rest =>
      if checkUlogDataBegin dp then some { s with discarding := true, sync := .loop }
      else some { s with dataQueue := rest, definitions := s.definitions ++ [dp] }
  | .loop =>
    if s.seq < s.definitions.length then some { s with sync := .loaded s.state }
    else some { s with sync := .finalLoad }
  | .loaded .connected =>
    (s.assert (s.targetSystem ≠ 0 && s.targetComponent ≠ 0) .target).sendDefinition .connected
  | .loaded .resendDef => s.sendDefinition .resendDef
  | .loaded .sendDef => s.sendDefinition .sendDef
  | .sent state => some { s.exchange state .ackWait with sync := .loop }
  | .loaded .ackRecv => some { s.exchange .ackRecv .sendDef with sync := .received }
  | .received => some { s with seq := s.seq + 1, sync := .loop }
  | .loaded .stopped | .loaded .init => some { s with sync := .loop }
  | .loaded .ackWait =>
    let syncTimeout := s.syncTimeout + 50
    some { s with
      syncTimeout := syncTimeout
      sync := if syncTimeout = 1000 then .timeout else .loop }
  | .timeout => some { s.exchange .ackWait .resendDef with sync := .loop }
  | .loaded .running | .loaded .unknown =>
    some { s.assert false .definitionState with sync := .loop }
  | .finalLoad => some { s with sync := .finalSet s.state }
  | .finalSet state => some { (s.setState state .running).1 with sync := .finalRun }
  | .finalRun => some { s with running := true, sync := .exited }
  | .exited => none

-- ---------------------------------------------------------------------------
-- `discard_loop` and `main_loop`
-- ---------------------------------------------------------------------------

def discardLoop (s : MutelemetryStreamer) : Option MutelemetryStreamer :=
  match s.discard with
  | .waiting => some (if s.discarding then { s with discard := .loop } else s)
  | .loop => some { s with discard := if s.running then .exited else .dequeue }
  | .dequeue =>
    match s.dataQueue with
    | [] => none
    | _ :: rest => some { s with dataQueue := rest, skipCntr := s.skipCntr + 1, discard := .loop }
  | .exited => none

def mainLoop (s : MutelemetryStreamer) : Option MutelemetryStreamer :=
  match s.main with
  | .idle => some (if s.running then { s with main := .entered } else s)
  | .entered =>
    some { s.assert (s.state = .running || s.state = .stopped) .mainState with
      main := .draining s.state }
  | .draining st =>
    some { s with main := if s.dataQueue.isEmpty then .idle else .dequeue st }
  | .dequeue st =>
    match s.dataQueue with
    | [] => none
    | dp :: rest => some { s with dataQueue := rest, main := .dequeued st dp }
  | .dequeued st dp =>
    if st = .stopped then some { s with skipCntr := s.skipCntr + 1, main := .draining st }
    else match s.sendUlog dp with
      | none => some { s with skipCntr := s.skipCntr + 1, main := .draining st }
      | some s => some { s with sendCntr := s.sendCntr + 1, main := .draining st }

-- ---------------------------------------------------------------------------
-- Protocol handlers
-- ---------------------------------------------------------------------------

/-- The target is the address `sa`; the comparison is made in 32 bits. -/
def isTarget (s : MutelemetryStreamer) (sa : SparseAddress) : Bool :=
  s.targetSystem.toUInt32 = sa.groupId && s.targetComponent.toUInt32 = sa.instanceId

/-- The new state a command asks for in the state its handler loaded, UNKNOWN
when it is refused. START in INIT stores the target, truncated to 8 bits: in one
step here, the system before the component in the source. -/
def compareCommand (s : MutelemetryStreamer) (call : CommandCall) :
    MutelemetryStreamer × StreamerState :=
  match call.command, call.state with
  | .loggingStart, .init =>
    ({ s with
        targetSystem := call.sa.groupId.toUInt8
        targetComponent := call.sa.instanceId.toUInt8 }, .connected)
  | .loggingStart, .stopped => (s, if s.isTarget call.sa then .running else .unknown)
  | .loggingStop, .running => (s, if s.isTarget call.sa then .stopped else .unknown)
  | _, _ => (s, .unknown)

/-- `proto_command_handler` up to the load of `state_`. -/
def protoCommandHandler (s : MutelemetryStreamer) (command : Command) (sa : SparseAddress)
    (confirmation : Bool) : MutelemetryStreamer :=
  if command = .other then s
  else { s with commands := s.commands ++ [⟨command, sa, confirmation, s.state, none⟩] }

/-- The rest of `proto_command_handler`, in two steps: the decision, then the
exchange and the acknowledgement of the command. -/
def commandStep (s : MutelemetryStreamer) (i : Nat) : Option MutelemetryStreamer :=
  match s.commands[i]? with
  | none => none
  | some call =>
    match call.newState with
    | none =>
      let (t, newState) := s.compareCommand call
      some { t with commands := s.commands.set i { call with newState := some newState } }
    | some newState =>
      let t := if newState = .unknown then s else s.exchange call.state newState
      some { t with
        commands := s.commands.eraseIdx i
        wire := if call.confirmation then
            s.wire ++ [.commandAck call.command (newState ≠ .unknown) call.sa]
          else s.wire }

/-- `proto_logging_ack_handler` up to the load of `state_`. -/
def protoLoggingAckHandler (s : MutelemetryStreamer) (sa : SparseAddress) (sequence : UInt16) :
    MutelemetryStreamer :=
  if s.state = .ackWait then { s with acks := s.acks ++ [⟨sa, sequence, none⟩] } else s

/-- The rest of `proto_logging_ack_handler`: the reading of `seq_`, then the
exchange. -/
def ackStep (s : MutelemetryStreamer) (i : Nat) : Option MutelemetryStreamer :=
  match s.acks[i]? with
  | none => none
  | some call =>
    match call.newState with
    | none =>
      let newState := if call.sequence = UInt16.ofNat s.seq then .ackRecv else .resendDef
      some { s with acks := s.acks.set i { call with newState := some newState } }
    | some newState => some { s.exchange .ackWait newState with acks := s.acks.eraseIdx i }

def step (s : MutelemetryStreamer) : Event → Option MutelemetryStreamer
  | .enqueue dp => some { s with dataQueue := s.dataQueue ++ [dp] }
  | .sync => s.syncLoop
  | .discard => s.discardLoop
  | .main => s.mainLoop
  | .command command sa confirmation => some (s.protoCommandHandler command sa confirmation)
  | .commandStep i => s.commandStep i
  | .loggingAck sa sequence => some (s.protoLoggingAckHandler sa sequence)
  | .ackStep i => s.ackStep i

end MutelemetryStreamer

end Mutelemetry.Network
