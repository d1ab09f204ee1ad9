import Mutelemetry.Lib.Bytes
import Mutelemetry.Lib.Transition
import Mutelemetry.Lib.Stateful
import Mutelemetry.Lib.Checked
import Mutelemetry.Lib.Height
import Mutelemetry.Ulog
import Mutelemetry.Logger
import Mutelemetry.Logger.Pool
import Mutelemetry.Network
import Mutelemetry.Network.Step
import Mutelemetry.Network.Phase
import Mutelemetry.Network.Exchange
import Mutelemetry.Network.Handshake
import Mutelemetry.Network.Accounting
import Mutelemetry.Network.Draining
import Mutelemetry.Network.Ownership
import Mutelemetry.Network.Clients
import Mutelemetry.Telemetry
import Mutelemetry.Telemetry.Encoders
import Mutelemetry.Telemetry.Capacity
import Mutelemetry.Telemetry.Calls
import Mutelemetry.Telemetry.Identifiers
import Mutelemetry.Parse.Format
import Mutelemetry.Parse.Series
import Mutelemetry.Parse
import Mutelemetry.Parse.Layout
import Mutelemetry.Parse.Decode
import Mutelemetry.Parse.Step
import Mutelemetry.Parse.Record
import Mutelemetry.Parse.Shape
import Mutelemetry.Parse.Tree
import Mutelemetry.Parse.Delivery
import Mutelemetry.Parse.Resolution
import Mutelemetry.Parse.Naming
import Mutelemetry.Parse.Trail
import Mutelemetry.Parse.Bounds
import Mutelemetry.Parse.Message
import Mutelemetry.Parse.Grammar
import Mutelemetry.Parse.Coherence
import Mutelemetry.Parse.Attribution
import Mutelemetry.Stream.Definitions
import Mutelemetry.Stream.Loss
import Mutelemetry.Stream.Language
import Mutelemetry.Stream.Instances
import Mutelemetry.Logger.Step
import Mutelemetry.Logger.Lifecycle
import Mutelemetry.Logger.Failure
import Mutelemetry.Logger.Shutdown
import Mutelemetry.Parse.Syntax
import Mutelemetry.Stream.Registration
import Mutelemetry.Lib.Loop
import Mutelemetry.Parse.Loops
import Mutelemetry.Parse.Retention
import Mutelemetry.Parse.Atomicity
import Mutelemetry.Parse.Recursion
import Mutelemetry.Parse.Split
import Mutelemetry.Parse.Entry
import Mutelemetry.Parse.Numeric
import Mutelemetry.Stream.RoundTrip
import Mutelemetry.Logger.Buffers
import Mutelemetry.Network.Payload
import Mutelemetry.Parse.Columns
import Mutelemetry.Lib.Journal
import Mutelemetry.Lib.Lockstep
import Mutelemetry.Lib.Simulation
import Mutelemetry.Logger.Journal
import Mutelemetry.Logger.Loop2
import Mutelemetry.Parse.Build
import Mutelemetry.Parse.Kept
import Mutelemetry.Parse.Relaxed
import Mutelemetry.Lib.Framing
import Mutelemetry.Process
import Mutelemetry.Process.Log
import Mutelemetry.Lib.Progress
import Mutelemetry.Logger.Posted
import Mutelemetry.Logger.Progress
import Mutelemetry.Network.Completion
import Mutelemetry.Process.Session
import Mutelemetry.Network.Commands
import Mutelemetry.Lib.Prefix
import Mutelemetry.Parse.Padding
import Mutelemetry.Stream.Reading
import Mutelemetry.Process.Reception
