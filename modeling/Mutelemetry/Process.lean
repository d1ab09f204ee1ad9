import Mutelemetry.Logger
import Mutelemetry.Network
import Mutelemetry.Telemetry

/-!
# The process

`MuTelemetry::instance_` with its logger and its streamer: `init` reads the
configuration and starts what it enables, the public calls enqueue for both, and
the logger and the streamer take from their queues. The configuration library,
the clock, the roster, the file system and the text of a date are what a call of
`init` meets.
-/

namespace Mutelemetry

open ByteString Telemetry Logger Network

/-- `MuConfig`, by what it has for the three keys of the program: the value of
an object of the right type. -/
structure MuConfig where
  isOk : Bool
  withNetwork : Option Bool
  withLocalLog : Option Bool
  logDirectoryPath : Option Bytes
  deriving DecidableEq, Repr

structure Setup where
  /-- `roster` is not null. -/
  roster : Bool
  rt : Bool
  /-- What `timestamp()` returns. -/
  now : UInt64
  /-- What `createConfig` returns. -/
  cfg : Option MuConfig
  /-- `to_iso_extended_string` of `now`. -/
  isoTime : Bytes
  /-- The log file can be opened. -/
  opens : Bool
  deriving DecidableEq, Repr

/-- The queues of `telemetry` have all that was ever enqueued; what is still to
be taken from them is with the logger and the streamer. There is a streamer when
`streamer_` has its roster and its queue. -/
structure Process where
  telemetry : MuTelemetry
  logDir : Bytes
  logFile : Bytes
  logger : MutelemetryLogger
  streamer : Option MutelemetryStreamer

inductive Process.Event
  | init (s : Setup)
  | call (c : Call)
  | logger (e : Logger.Event)
  | streamer (e : Network.Event)

namespace Process

def new : Process := ⟨.new false false 0, [], [], .new, none⟩

-- ---------------------------------------------------------------------------
-- `init`
-- ---------------------------------------------------------------------------

/-- `read_config`; the directory is read only when there is a log. -/
def readConfig (p : Process) (cfg : Option MuConfig) : Bool × Process :=
  match cfg with
  | none => (false, p)
  | some cfg =>
    if cfg.isOk then
      let withNetwork := cfg.withNetwork.getD false
      let withLocalLog := cfg.withLocalLog.getD false
      let p := if withLocalLog then { p with logDir := cfg.logDirectoryPath.getD [] } else p
      (true, { p with
        telemetry := { p.telemetry with withNetwork := withNetwork, withLocalLog := withLocalLog } })
    else (false, p)

/-- `streamer_.init` and `run`. A streamer that has its roster refuses a second. -/
def startStreamer (p : Process) (rt : Bool) : Process :=
  if p.telemetry.withNetwork then
    match p.streamer with
    | none => { p with streamer := some (.new rt) }
    | some _ => { p with telemetry := { p.telemetry with withNetwork := false } }
  else p

def logFileName (logDir isoTime : Bytes) : Bytes :=
  logDir ++ (if logDir ≠ [] ∧ logDir.getLast? ≠ some (charByte '/') then ascii "/" else []) ++
    (ascii "mutelemetry_" ++ isoTime ++ ascii ".ulg")

def startLogger (p : Process) (isoTime : Bytes) (opens : Bool) : Process :=
  if p.telemetry.withLocalLog then
    let result := p.logger.initResult opens
    let logger := p.logger.init opens
    { p with
      logFile := logFileName p.logDir isoTime
      telemetry := { p.telemetry with withLocalLog := result }
      logger := if result then { logger with running := true } else logger }
  else p

/-- What a call has enqueued reaches the logger and the streamer. -/
def publish (p : Process) (t : MuTelemetry) : Process := { p with
  telemetry := t
  logger := { p.logger with
    queue := p.logger.queue ++ t.logQueue.drop p.telemetry.logQueue.length }
  streamer := p.streamer.map fun s => { s with
    dataQueue := s.dataQueue ++ t.netQueue.drop p.telemetry.netQueue.length } }

/-- `init`; there is no return from `roster->addComponent` on a null roster. -/
def init (p : Process) (s : Setup) : Option (Bool × Process) :=
  if p.telemetry.startTimestamp ≠ 0 then some (false, p)
  else if s.roster then
    let p := { p with telemetry := { p.telemetry with startTimestamp := s.now } }
    let (res, p) := p.readConfig s.cfg
    let p := if res then (p.startStreamer s.rt).startLogger s.isoTime s.opens else p
    let p := p.publish p.telemetry.createHeaderAndFlags
    some (p.telemetry.isEnabled, p)
  else none

-- ---------------------------------------------------------------------------
-- Steps
-- ---------------------------------------------------------------------------

/-- A public call; one that does not return ends the process. -/
def call (p : Process) (c : Call) : Option Process :=
  match (p.telemetry.call c).run true with
  | .ok (_, t) _ => some (p.publish t)
  | .error .. => none

/-- The logger's own steps: `main_loop`, and the end of the process. -/
def loggerStep (p : Process) (e : Logger.Event) : Option Process :=
  match e with
  | .enqueue _ | .init _ | .start => none
  | .call | .step _ | .stop | .release _ | .releaseOnError =>
    (p.logger.step e).map fun l => { p with logger := l }

def streamerStep (p : Process) (e : Network.Event) : Option Process :=
  match e with
  | .enqueue _ => none
  | .sync | .discard | .main | .command .. | .commandStep _ | .loggingAck .. | .ackStep _ =>
    p.streamer.bind fun s => (s.step e).map fun s => { p with streamer := some s }

def step (p : Process) : Event → Option Process
  | .init s => (p.init s).map Prod.snd
  | .call c => p.call c
  | .logger e => p.loggerStep e
  | .streamer e => p.streamerStep e

def answered (p : Process) : Event → List Call
  | .call c =>
    match (p.telemetry.call c).run true with
    | .ok (true, _) _ => if p.telemetry.isEnabled then [c] else []
    | _ => []
  | _ => []

end Process

end Mutelemetry
