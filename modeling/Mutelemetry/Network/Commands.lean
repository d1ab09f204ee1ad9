import Mathlib.Data.List.Perm.Basic
import Mutelemetry.Network.Handshake

/-!
# Commands and their answers

A START or STOP that asks for a confirmation is answered once, to the node that
sent it, in whatever order the handlers get on and whether or not their
exchanges succeed, where a failed assertion is gone on from; a command that does
not ask is never answered. The reference client does not ask, and waits for an
answer. Which answers reach it is for the roster to say.
-/

namespace Mutelemetry.Network

open Ulog

-- ---------------------------------------------------------------------------
-- What is asked and answered
-- ---------------------------------------------------------------------------

def Wire.answer : Wire → Option (Command × SparseAddress)
  | .commandAck command _ target => some (command, target)
  | _ => none

def CommandCall.asks (call : CommandCall) : Option (Command × SparseAddress) :=
  if call.confirmation then some (call.command, call.sa) else none

def Event.asks : Event → Option (Command × SparseAddress)
  | .command c sa confirmation => if c ≠ .other ∧ confirmation then some (c, sa) else none
  | _ => none

/-- The answers that were sent, and those that are to be sent. -/
def MutelemetryStreamer.answers (s : MutelemetryStreamer) : List (Command × SparseAddress) :=
  s.wire.filterMap Wire.answer ++ s.commands.filterMap CommandCall.asks

open MutelemetryStreamer

-- ---------------------------------------------------------------------------
-- One step
-- ---------------------------------------------------------------------------

theorem filterMap_set {f : α → Option β} {l : List α} (h : l[i]? = some a) (hf : f b = f a) :
    (l.set i b).filterMap f = l.filterMap f := by
  induction l generalizing i with
  | nil => cases h
  | cons x l ih =>
    cases i with
    | zero =>
      obtain rfl : x = a := Option.some.inj h
      simp only [List.set_cons_zero, List.filterMap_cons, hf]
    | succ i => simp only [List.set_cons_succ, List.filterMap_cons, ih h]

theorem filterMap_singleton (f : α → Option β) (a : α) : [a].filterMap f = (f a).toList := by
  cases h : f a <;> simp [h]

section
variable {s s' : MutelemetryStreamer}

structure Mute (s s' : MutelemetryStreamer) : Prop where
  commands : s'.commands = s.commands
  wire : s'.wire.filterMap Wire.answer = s.wire.filterMap Wire.answer

theorem mute_self (s : MutelemetryStreamer) : Mute s s := ⟨rfl, rfl⟩

theorem mute_exchange (s : MutelemetryStreamer) (old new : StreamerState) :
    Mute s (s.exchange old new) := by
  obtain ⟨_, _, h⟩ := s.exchange_frame old new
  rw [h]
  exact { mute_self s with }

theorem MutelemetryStreamer.SyncStep.mute (hs : s.SyncStep s') : Mute s s' := by
  cases hs with
  | send => exact { mute_self s with wire := by simp [Wire.answer] }
  | await | receive | resend => exact { mute_exchange s _ _ with }
  | finalSet =>
    obtain ⟨_, h⟩ := s.setState_frame _ .running
    rw [h]
    exact { mute_self s with }
  | asleep | collect | begin | load | leave | refuse | next | rest | tick | unexpected
  | finalLoad | finalRun => exact { mute_self s with }

theorem MutelemetryStreamer.MainStep.mute (hs : s.MainStep s') : Mute s s' := by
  cases hs with
  | send => exact { mute_self s with wire := by simp [Wire.answer] }
  | notRunning | enter | load | loadLost | done | more | dequeue | skip =>
    exact { mute_self s with }

theorem Mute.answers (h : Mute s s') : s'.answers = s.answers := by
  rw [MutelemetryStreamer.answers, MutelemetryStreamer.answers, h.commands, h.wire]

theorem compareCommand_wire (s : MutelemetryStreamer) (call : CommandCall) :
    (s.compareCommand call).1.wire = s.wire := by
  unfold compareCommand
  split <;> rfl

def CommandCall.replies (call : CommandCall) (accepted : Bool) : List Wire :=
  if call.confirmation then [.commandAck call.command accepted call.sa] else []

theorem commandStep_replies (hs : s.commandStep i = some s') :
    ∃ call, s.commands[i]? = some call ∧
      ((∃ answer, s'.commands = s.commands.set i { call with newState := answer } ∧
        s'.wire = s.wire) ∨
      ∃ accepted, s'.commands = s.commands.eraseIdx i ∧
        s'.wire = s.wire ++ call.replies accepted) := by
  unfold commandStep at hs
  split at hs
  · cases hs
  rename_i call hcall
  refine ⟨call, hcall, ?_⟩
  split at hs
  · rw [Option.some_inj] at hs
    subst hs
    exact .inl ⟨_, rfl, compareCommand_wire s call⟩
  · rename_i newState _
    rw [Option.some_inj] at hs
    subst hs
    refine .inr ⟨newState ≠ .unknown, rfl, ?_⟩
    rw [CommandCall.replies]
    dsimp only
    split
    · rfl
    · rw [List.append_nil]

theorem answers_commandStep (hs : s.commandStep i = some s') : s'.answers.Perm s.answers := by
  obtain ⟨call, hcall, ⟨answer, hcommands, hwire⟩ | ⟨accepted, hcommands, hwire⟩⟩ :=
    commandStep_replies hs
  · have hasks : (s.commands.set i { call with newState := answer }).filterMap CommandCall.asks =
        s.commands.filterMap CommandCall.asks := filterMap_set hcall rfl
    rw [answers, answers, hcommands, hwire, hasks]
  · have hperm : s.commands.Perm (call :: s.commands.eraseIdx i) := by
      obtain ⟨hi, rfl⟩ := List.getElem?_eq_some_iff.mp hcall
      exact (List.getElem_cons_eraseIdx_perm hi).symm
    have hreplies : (call.replies accepted).filterMap Wire.answer =
        [call].filterMap CommandCall.asks := by
      cases hc : call.confirmation <;> simp [CommandCall.replies, CommandCall.asks, Wire.answer, hc]
    rw [answers, answers, hcommands, hwire, List.filterMap_append, hreplies, List.append_assoc,
      ← List.filterMap_append]
    exact (hperm.symm.filterMap _).append_left _

/-- What is asked in a step is to be answered, and nothing else. -/
theorem answers_step (hs : s.step e = some s') :
    s'.answers.Perm (s.answers ++ e.asks.toList) := by
  have mute (hm : Mute s s') (he : e.asks = none) :
      s'.answers.Perm (s.answers ++ e.asks.toList) := by
    rw [he, Option.toList_none, List.append_nil, hm.answers]
  cases e with
  | enqueue =>
    cases hs
    exact mute { mute_self s with } rfl
  | sync => exact mute (syncLoop_step hs).mute rfl
  | discard =>
    refine mute ?_ rfl
    cases discardLoop_step hs <;> exact { mute_self s with }
  | main => exact mute (mainLoop_step hs).mute rfl
  | command command sa confirmation =>
    cases hs
    obtain ⟨hother, he⟩ | ⟨hother, he⟩ := s.protoCommandHandler_cases command sa confirmation
    · rw [he]
      simp [Event.asks, hother]
    · have hasks : (Event.asks (.command command sa confirmation)).toList =
          [CommandCall.mk command sa confirmation s.state none].filterMap CommandCall.asks := by
        cases confirmation <;> simp [Event.asks, CommandCall.asks, hother]
      rw [he, answers, answers, List.filterMap_append, hasks, List.append_assoc]
  | commandStep i =>
    simpa [Event.asks] using answers_commandStep hs
  | loggingAck sa sequence =>
    cases hs
    refine mute ?_ rfl
    obtain ⟨-, he⟩ | ⟨-, he⟩ := s.protoLoggingAckHandler_cases sa sequence
    · rw [he]
      exact { mute_self s with }
    · rw [he]
      exact mute_self s
  | ackStep i =>
    refine mute ?_ rfl
    cases ackStep_step hs with
    | agrees | differs => exact { mute_self s with }
    | exchange => exact { mute_exchange s _ _ with }

end

-- ---------------------------------------------------------------------------
-- Runs
-- ---------------------------------------------------------------------------

/-- Every START and STOP that asked for a confirmation is answered once, to its
sender, or still handled; and there are no other answers. -/
theorem commands_answered (h : Transition.run step (.new rt) es = some s) :
    (s.wire.filterMap Wire.answer ++ s.commands.filterMap CommandCall.asks).Perm
      (es.filterMap Event.asks) := by
  have hrun : s.answers.Perm (([] ++ es).filterMap Event.asks) :=
    Transition.run_history
      (fun past (s : MutelemetryStreamer) => s.answers.Perm (past.filterMap Event.asks))
      (fun {past s e s'} hpast hs => by
        rw [List.filterMap_append, filterMap_singleton]
        exact (answers_step hs).trans (hpast.append_right _))
      h .rfl
  rwa [List.nil_append] at hrun

def twoAsk : List Event :=
  [.command .loggingStart ⟨1, 1⟩ true, .command .loggingStop ⟨2, 2⟩ true, .commandStep 0,
    .commandStep 0]

theorem commands_answered_twoAsk : ∃ s,
    Transition.run step (.new false) twoAsk = some s ∧
    (s.wire.filterMap Wire.answer ++ s.commands.filterMap CommandCall.asks).Perm
      [(.loggingStart, ⟨1, 1⟩), (.loggingStop, ⟨2, 2⟩)] := by
  have hrun : Transition.run step (.new false) twoAsk = some _ := rfl
  exact ⟨_, hrun, commands_answered hrun⟩

-- ---------------------------------------------------------------------------
-- The reference client
-- ---------------------------------------------------------------------------

inductive ConnectPc
  | start
  /-- At `while (!is_start_ack)`. -/
  | waiting
  | returned
  deriving DecidableEq, Repr

/-- The reference client's `connect`, with its flags and the COMMAND_LONGs it
sent: the command and its confirmation. -/
structure Courtship where
  system : System
  connect : ConnectPc
  isStartAck : Bool
  isStopAck : Bool
  sent : List (Command × Bool)
  deriving DecidableEq, Repr

namespace Courtship

def new (rt : Bool) (address : SparseAddress) : Courtship :=
  ⟨.new rt address, .start, false, false, []⟩

inductive Event
  /-- Anything but the client's commands. -/
  | system (e : System.Event)
  /-- A turn of `connect`. -/
  | connect
  /-- A COMMAND_LONG of the client reaches the streamer. -/
  | command (i : Nat)
  /-- A COMMAND_ACK of the streamer reaches the client. -/
  | commandAck (i : Nat)
  deriving DecidableEq, Repr

/-- `command_start_logging`: the confirmation is 0. -/
def commandStartLogging (c : Courtship) : Courtship :=
  { c with sent := c.sent ++ [(.loggingStart, false)] }

def connectStep (c : Courtship) : Option Courtship :=
  match c.connect with
  | .start => some { c.commandStartLogging with connect := .waiting }
  | .waiting => some (if c.isStartAck then { c with connect := .returned } else c.commandStartLogging)
  | .returned => none

/-- The handler of COMMAND_ACK. The port is the streamer's; neither the result nor
the target is looked at. -/
def commandAckHandler (c : Courtship) (command : Command) : Courtship :=
  match command with
  | .loggingStart => { c with isStartAck := true }
  | .loggingStop => { c with isStartAck := false, isStopAck := true }
  | .other => c

/-- `reaches` tells which targets the roster gives to the client. -/
def step (reaches : SparseAddress → Bool) (c : Courtship) : Event → Option Courtship
  | .system e => (c.system.step e).map fun s => { c with system := s }
  | .connect => c.connectStep
  | .command i => c.sent[i]?.bind fun (command, confirmation) =>
    (c.system.step (.streamer (.command command c.system.client.address confirmation))).map
      fun s => { c with system := s }
  | .commandAck i => c.system.streamer.wire[i]?.bind fun w =>
    match w with
    | .commandAck command _ target =>
      if reaches target then some (c.commandAckHandler command) else none
    | _ => none

def asked : System.Event → Option (Command × SparseAddress)
  | .streamer e => e.asks
  | _ => none

/-- No other node asks for a confirmation that would reach the client. -/
def Event.Apart (reaches : SparseAddress → Bool) : Event → Prop
  | .system e => ∀ q ∈ asked e, reaches q.2 = false
  | _ => True

-- ---------------------------------------------------------------------------
-- What the client waits for
-- ---------------------------------------------------------------------------

section
variable {reaches : SparseAddress → Bool}

/-- The client asks for no confirmation, and none that is sent reaches it. -/
structure Ignored (reaches : SparseAddress → Bool) (c : Courtship) : Prop where
  sent : ∀ m ∈ c.sent, m.2 = false
  answers : ∀ q ∈ c.system.streamer.answers, reaches q.2 = false
  isStartAck : c.isStartAck = false
  isStopAck : c.isStopAck = false
  connect : c.connect ≠ .returned

theorem ignored_new (rt : Bool) (address : SparseAddress) : Ignored reaches (new rt address) where
  sent := by simp [new]
  answers := by simp [new, System.new, MutelemetryStreamer.new, MutelemetryStreamer.answers]
  isStartAck := rfl
  isStopAck := rfl
  connect := by simp [new]

theorem answers_system {s s' : System} (hs : s.step e = some s') :
    s'.streamer.answers.Perm (s.streamer.answers ++ (asked e).toList) := by
  cases e with
  | streamer e =>
    obtain ⟨-, t, ht, rfl⟩ := System.step_streamer hs
    exact answers_step ht
  | deliver i =>
    obtain ⟨w, -, rfl⟩ := Option.map_eq_some_iff.mp hs
    simp [asked]
  | ack i =>
    rw [System.step] at hs
    split at hs
    · obtain ⟨j, -, rfl⟩ := Option.map_eq_some_iff.mp hs
      have hack : s.streamer.step (.loggingAck s.client.address j) = some _ := rfl
      simpa [asked, Event.asks] using answers_step hack
    · cases hs

theorem Ignored.system {c : Courtship} (h : Ignored reaches c) (hs : c.system.step e = some s)
    (hasked : ∀ q ∈ asked e, reaches q.2 = false) : Ignored reaches { c with system := s } := by
  refine { h with answers := fun q hq => ?_ }
  obtain hq | hq := List.mem_append.mp ((answers_system hs).mem_iff.mp hq)
  · exact h.answers q hq
  · exact hasked q (Option.mem_toList.mp hq)

theorem Ignored.connectStep {c c' : Courtship} (h : Ignored reaches c)
    (hs : c.connectStep = some c') : Ignored reaches c' := by
  have hsent : ∀ m ∈ c.commandStartLogging.sent, m.2 = false := by
    intro m hm
    obtain hm | hm := List.mem_append.mp hm
    · exact h.sent m hm
    · rw [List.mem_singleton.mp hm]
  unfold Courtship.connectStep at hs
  split at hs
  · cases hs
    exact ⟨hsent, h.answers, h.isStartAck, h.isStopAck, by simp⟩
  · rw [h.isStartAck] at hs
    cases hs
    exact ⟨hsent, h.answers, h.isStartAck, h.isStopAck, h.connect⟩
  · cases hs

theorem Ignored.step {c c' : Courtship} (h : Ignored reaches c) (he : e.Apart reaches)
    (hs : c.step reaches e = some c') : Ignored reaches c' := by
  cases e with
  | system e =>
    obtain ⟨s, hstep, rfl⟩ := Option.map_eq_some_iff.mp hs
    exact h.system hstep he
  | connect => exact h.connectStep hs
  | command i =>
    obtain ⟨⟨command, confirmation⟩, hi, hs⟩ := Option.bind_eq_some_iff.mp hs
    obtain ⟨s, hstep, rfl⟩ := Option.map_eq_some_iff.mp hs
    have hconfirmation : confirmation = false := h.sent _ (List.mem_of_getElem? hi)
    exact h.system hstep (by simp [asked, Event.asks, hconfirmation])
  | commandAck i =>
    obtain ⟨w, hi, hs⟩ := Option.bind_eq_some_iff.mp hs
    cases w with
    | loggingData | loggingDataAcked => cases hs
    | commandAck command accepted target =>
      have hanswer : (command, target) ∈ c.system.streamer.answers :=
        List.mem_append_left _ (List.mem_filterMap.mpr ⟨_, List.mem_of_getElem? hi, rfl⟩)
      dsimp only at hs
      rw [h.answers _ hanswer] at hs
      cases hs

/-- The reference client's `connect` never returns, whatever the streamer, the
network and other nodes do, unless one of these asks for a confirmation that
reaches the client. -/
theorem connect_waits {c : Courtship}
    (h : Transition.run (Courtship.step reaches) (new rt address) es = some c)
    (hapart : ∀ e ∈ es, e.Apart reaches) :
    c.connect ≠ .returned ∧ c.isStartAck = false ∧ c.isStopAck = false ∧
    ∀ command accepted target, .commandAck command accepted target ∈ c.system.streamer.wire →
      reaches target = false := by
  have hg := Transition.Guarded.of_run (C := fun _ => Event.Apart reaches) h
    fun e he _ => hapart e he
  have hi := hg.invariant (Ignored reaches) Ignored.step (ignored_new rt address)
  refine ⟨hi.connect, hi.isStartAck, hi.isStopAck, fun command accepted target hw => ?_⟩
  have hanswer : (command, target) ∈ c.system.streamer.answers :=
    List.mem_append_left _ (List.mem_filterMap.mpr ⟨_, hw, rfl⟩)
  exact hi.answers _ hanswer

end

/-- The client's own address and that of its group. -/
def toClient (target : SparseAddress) : Bool :=
  target.groupId = 1 && (target.instanceId = 1 || target.instanceId = 0)

/-- The START of `connect` takes effect, the streamer gets to run, and another
node is answered. -/
def unanswered : List Event :=
  [.system (.streamer (.enqueue (fileHeader 0))), .system (.streamer (.enqueue [2, 0, 65, 0, 0])),
    .system (.streamer .sync), .system (.streamer .sync), .connect, .command 0,
    .system (.streamer (.commandStep 0)), .system (.streamer (.commandStep 0)),
    .system (.streamer .sync), .system (.streamer .sync), .system (.streamer .sync),
    .system (.deliver 0), .system (.ack 0), .system (.streamer (.ackStep 0)),
    .system (.streamer (.ackStep 0))] ++
  List.replicate 7 (.system (.streamer .sync)) ++
  [.system (.streamer (.command .loggingStart ⟨2, 2⟩ true)), .system (.streamer (.commandStep 0)),
    .system (.streamer (.commandStep 0)), .connect]

theorem connect_waits_unanswered : ∃ c,
    Transition.run (Courtship.step toClient) (new false ⟨1, 1⟩) unanswered = some c ∧
    c.system.streamer.running = true ∧ c.sent.length = 2 ∧
    .commandAck .loggingStart false ⟨2, 2⟩ ∈ c.system.streamer.wire ∧ c.connect ≠ .returned := by
  have hrun : (Transition.run (Courtship.step toClient) (new false ⟨1, 1⟩) unanswered).map
      (fun c => (c.system.streamer.running, c.sent.length,
        decide (.commandAck .loggingStart false ⟨2, 2⟩ ∈ c.system.streamer.wire))) =
      some (true, 2, true) := by decide +kernel
  obtain ⟨c, hc, hfacts⟩ := Option.map_eq_some_iff.mp hrun
  simp only [Prod.mk.injEq, decide_eq_true_eq] at hfacts
  obtain ⟨hrunning, hsent, hanswer⟩ := hfacts
  have hapart : ∀ e ∈ unanswered, e.Apart toClient := by
    simp [unanswered, Event.Apart, asked, Event.asks, toClient]
  exact ⟨c, hc, hrunning, hsent, hanswer, (connect_waits hc hapart).1⟩

end Courtship

end Mutelemetry.Network
