import Mutelemetry.Network

/-!
# What one step can do

`sync_loop`, `main_loop` and the two handlers, read as the list of their
transitions. Every invariant of the streamer is proved from these lists; no
later proof unfolds a step function.
-/

namespace Mutelemetry.Network

open ByteString Ulog

def StreamerState.Sends : StreamerState → Prop
  | .connected | .resendDef | .sendDef => True
  | _ => False

def Event.Handler : Event → Prop
  | .command .. | .commandStep _ | .loggingAck .. | .ackStep _ => True
  | .enqueue _ | .sync | .discard | .main => False

namespace MutelemetryStreamer

/-- A compare-exchange takes effect, or it changes nothing and its assertion
fails. -/
theorem exchange_cases (s : MutelemetryStreamer) (old new : StreamerState) :
    s.state = old ∧ s.exchange old new = { s with state := new } ∨
    s.state ≠ old ∧ s.exchange old new = { s with failed := s.failed ++ [.exchanged] } := by
  by_cases h : s.state = old
  · exact .inl ⟨h, by simp [exchange, setState, h, assert]⟩
  · exact .inr ⟨h, by simp [exchange, setState, h, assert]⟩

theorem exchange_eq {s : MutelemetryStreamer} (h : s.state = old) (new : StreamerState) :
    s.exchange old new = { s with state := new } := by
  simp [exchange, setState, h, assert]

theorem setState_cases (s : MutelemetryStreamer) (old new : StreamerState) :
    s.state = old ∧ (s.setState old new).1 = { s with state := new } ∨
    s.state ≠ old ∧ (s.setState old new).1 = s := by
  by_cases h : s.state = old
  · exact .inl ⟨h, by simp [setState, h]⟩
  · exact .inr ⟨h, by simp [setState, h]⟩

theorem exchange_frame (s : MutelemetryStreamer) (old new : StreamerState) :
    ∃ state failed, s.exchange old new = { s with state := state, failed := failed } := by
  obtain ⟨-, h⟩ | ⟨-, h⟩ := s.exchange_cases old new
  · exact ⟨_, _, h⟩
  · exact ⟨_, _, h⟩

theorem setState_frame (s : MutelemetryStreamer) (old new : StreamerState) :
    ∃ state, (s.setState old new).1 = { s with state := state } := by
  obtain ⟨-, h⟩ | ⟨-, h⟩ := s.setState_cases old new
  · exact ⟨_, h⟩
  · exact ⟨_, h⟩

@[simp] theorem exchange_seq (s : MutelemetryStreamer) (old new : StreamerState) :
    (s.exchange old new).seq = s.seq := by
  rcases s.exchange_cases old new with ⟨-, h⟩ | ⟨-, h⟩ <;> rw [h]

@[simp] theorem exchange_definitions (s : MutelemetryStreamer) (old new : StreamerState) :
    (s.exchange old new).definitions = s.definitions := by
  rcases s.exchange_cases old new with ⟨-, h⟩ | ⟨-, h⟩ <;> rw [h]

@[simp] theorem exchange_wire (s : MutelemetryStreamer) (old new : StreamerState) :
    (s.exchange old new).wire = s.wire := by
  rcases s.exchange_cases old new with ⟨-, h⟩ | ⟨-, h⟩ <;> rw [h]

@[simp] theorem exchange_commands (s : MutelemetryStreamer) (old new : StreamerState) :
    (s.exchange old new).commands = s.commands := by
  rcases s.exchange_cases old new with ⟨-, h⟩ | ⟨-, h⟩ <;> rw [h]

@[simp] theorem exchange_acks (s : MutelemetryStreamer) (old new : StreamerState) :
    (s.exchange old new).acks = s.acks := by
  rcases s.exchange_cases old new with ⟨-, h⟩ | ⟨-, h⟩ <;> rw [h]

@[simp] theorem setState_seq (s : MutelemetryStreamer) (old new : StreamerState) :
    (s.setState old new).1.seq = s.seq := by
  rcases s.setState_cases old new with ⟨-, h⟩ | ⟨-, h⟩ <;> rw [h]

@[simp] theorem setState_definitions (s : MutelemetryStreamer) (old new : StreamerState) :
    (s.setState old new).1.definitions = s.definitions := by
  rcases s.setState_cases old new with ⟨-, h⟩ | ⟨-, h⟩ <;> rw [h]

@[simp] theorem setState_wire (s : MutelemetryStreamer) (old new : StreamerState) :
    (s.setState old new).1.wire = s.wire := by
  rcases s.setState_cases old new with ⟨-, h⟩ | ⟨-, h⟩ <;> rw [h]

@[simp] theorem setState_acks (s : MutelemetryStreamer) (old new : StreamerState) :
    (s.setState old new).1.acks = s.acks := by
  rcases s.setState_cases old new with ⟨-, h⟩ | ⟨-, h⟩ <;> rw [h]

theorem assert_cases (s : MutelemetryStreamer) (b : Bool) (a : Assertion) :
    b = true ∧ s.assert b a = s ∨
    b = false ∧ s.assert b a = { s with failed := s.failed ++ [a] } := by
  cases b <;> simp [assert]

inductive SyncStep (s : MutelemetryStreamer) : MutelemetryStreamer → Prop
  | asleep : s.sync = .collect → SyncStep s s
  | collect : s.sync = .collect → s.dataQueue = dp :: rest → checkUlogDataBegin dp = false →
      SyncStep s { s with dataQueue := rest, definitions := s.definitions ++ [dp] }
  | begin : s.sync = .collect → s.dataQueue = dp :: rest → checkUlogDataBegin dp = true →
      SyncStep s { s with discarding := true, sync := .loop }
  | load : s.sync = .loop → s.seq < s.definitions.length →
      SyncStep s { s with sync := .loaded s.state }
  | leave : s.sync = .loop → s.definitions.length ≤ s.seq →
      SyncStep s { s with sync := .finalLoad }
  | send : s.sync = .loaded st → st.Sends → s.definitions[s.seq]? = some dp →
      dp.length ≤ fieldDataLen → (∀ a ∈ lost, a = .target) →
      SyncStep s { s with
        failed := s.failed ++ lost
        wire := s.wire ++
          [.loggingDataAcked s.targetSystem s.targetComponent (UInt16.ofNat s.seq) dp]
        syncTimeout := 0
        sync := .sent st }
  | refuse : s.sync = .loaded st → st.Sends → s.definitions[s.seq]? = some dp →
      fieldDataLen < dp.length → (∀ a ∈ lost, a = .target ∨ a = .definitionSent) →
      SyncStep s { s with failed := s.failed ++ lost, sync := .loop }
  | await : s.sync = .sent st → SyncStep s { s.exchange st .ackWait with sync := .loop }
  | receive : s.sync = .loaded .ackRecv →
      SyncStep s { s.exchange .ackRecv .sendDef with sync := .received }
  | next : s.sync = .received → SyncStep s { s with seq := s.seq + 1, sync := .loop }
  | rest : s.sync = .loaded st → st = .stopped ∨ st = .init →
      SyncStep s { s with sync := .loop }
  | tick : s.sync = .loaded .ackWait →
      pc = .loop ∧ s.syncTimeout + 50 ≠ 1000 ∨ pc = .timeout ∧ s.syncTimeout + 50 = 1000 →
      SyncStep s { s with syncTimeout := s.syncTimeout + 50, sync := pc }
  | resend : s.sync = .timeout → SyncStep s { s.exchange .ackWait .resendDef with sync := .loop }
  | unexpected : s.sync = .loaded st → st = .running ∨ st = .unknown →
      SyncStep s { s with failed := s.failed ++ [.definitionState], sync := .loop }
  | finalLoad : s.sync = .finalLoad → SyncStep s { s with sync := .finalSet s.state }
  | finalSet : s.sync = .finalSet st →
      SyncStep s { (s.setState st .running).1 with sync := .finalRun }
  | finalRun : s.sync = .finalRun → SyncStep s { s with running := true, sync := .exited }

theorem sendDefinition_step {s t : MutelemetryStreamer} (lost : List Assertion)
    (hpc : s.sync = .loaded st) (hst : st.Sends) (ht : t = { s with failed := s.failed ++ lost })
    (hlost : ∀ a ∈ lost, a = .target) (h : t.sendDefinition st = some s') : SyncStep s s' := by
  subst ht
  unfold sendDefinition at h
  dsimp only at h
  split at h
  · cases h
  · rename_i dp hdp
    by_cases hlen : fieldDataLen < dp.length
    · simp only [sendUlogAck, hlen, ↓reduceIte, Option.some.injEq] at h
      subst h
      have hlost' : ∀ a ∈ lost ++ [.definitionSent], a = .target ∨ a = Assertion.definitionSent := by
        intro a ha
        rcases List.mem_append.mp ha with ha | ha
        · exact .inl (hlost a ha)
        · exact .inr (List.mem_singleton.mp ha)
      simpa [assert, List.append_assoc] using SyncStep.refuse hpc hst hdp hlen hlost'
    · simp only [sendUlogAck, hlen, ↓reduceIte, Option.some.injEq] at h
      subst h
      exact .send hpc hst hdp (by omega) hlost

theorem syncLoop_step {s s' : MutelemetryStreamer} (h : s.syncLoop = some s') : SyncStep s s' := by
  unfold syncLoop at h
  split at h
  · rename_i hpc
    split at h
    · cases h; exact .asleep hpc
    · rename_i dp rest hq
      split at h <;> cases h
      · rename_i hb; exact .begin hpc hq hb
      · rename_i hb; exact .collect hpc hq (by simpa using hb)
  · rename_i hpc
    split at h <;> cases h
    · rename_i hlt; exact .load hpc hlt
    · rename_i hlt; exact .leave hpc (by omega)
  · rename_i hpc
    rcases s.assert_cases (s.targetSystem ≠ 0 && s.targetComponent ≠ 0) .target with
      ⟨-, ha⟩ | ⟨-, ha⟩
    · rw [ha] at h
      exact sendDefinition_step [] hpc trivial (by simp) (by simp) h
    · rw [ha] at h
      exact sendDefinition_step [.target] hpc trivial rfl (by simp) h
  · rename_i hpc
    exact sendDefinition_step [] hpc trivial (by simp) (by simp) h
  · rename_i hpc
    exact sendDefinition_step [] hpc trivial (by simp) (by simp) h
  · rename_i st hpc; cases h; exact .await hpc
  · rename_i hpc; cases h; exact .receive hpc
  · rename_i hpc; cases h; exact .next hpc
  · rename_i hpc; cases h; exact .rest hpc (.inl rfl)
  · rename_i hpc; cases h; exact .rest hpc (.inr rfl)
  · rename_i hpc
    cases h
    refine .tick hpc ?_
    split
    · rename_i ht; exact .inr ⟨rfl, ht⟩
    · rename_i ht; exact .inl ⟨rfl, ht⟩
  · rename_i hpc; cases h; exact .resend hpc
  · rename_i hpc; cases h; exact .unexpected hpc (.inl rfl)
  · rename_i hpc; cases h; exact .unexpected hpc (.inr rfl)
  · rename_i hpc; cases h; exact .finalLoad hpc
  · rename_i st hpc; cases h; exact .finalSet hpc
  · rename_i hpc; cases h; exact .finalRun hpc
  · cases h

inductive MainStep (s : MutelemetryStreamer) : MutelemetryStreamer → Prop
  | notRunning : s.main = .idle → s.running = false → MainStep s s
  | enter : s.main = .idle → s.running = true → MainStep s { s with main := .entered }
  | load : s.main = .entered → s.state = .running ∨ s.state = .stopped →
      MainStep s { s with main := .draining s.state }
  | loadLost : s.main = .entered → s.state ≠ .running → s.state ≠ .stopped →
      MainStep s { s with failed := s.failed ++ [.mainState], main := .draining s.state }
  | done : s.main = .draining st → s.dataQueue = [] → MainStep s { s with main := .idle }
  | more : s.main = .draining st → s.dataQueue ≠ [] → MainStep s { s with main := .dequeue st }
  | dequeue : s.main = .dequeue st → s.dataQueue = dp :: rest →
      MainStep s { s with dataQueue := rest, main := .dequeued st dp }
  | skip : s.main = .dequeued st dp → st = .stopped ∨ fieldDataLen < dp.length →
      MainStep s { s with skipCntr := s.skipCntr + 1, main := .draining st }
  | send : s.main = .dequeued st dp → st ≠ .stopped → dp.length ≤ fieldDataLen →
      MainStep s { s with
        wire := s.wire ++ [.loggingData s.targetSystem s.targetComponent dp]
        sendCntr := s.sendCntr + 1
        main := .draining st }

theorem mainLoop_step {s s' : MutelemetryStreamer} (h : s.mainLoop = some s') : MainStep s s' := by
  unfold mainLoop at h
  split at h
  · rename_i hpc
    split at h <;> cases h
    · rename_i hr; exact .enter hpc hr
    · rename_i hr; exact .notRunning hpc (by simpa using hr)
  · rename_i hpc
    rcases s.assert_cases (s.state = .running || s.state = .stopped) .mainState with
      ⟨hb, ha⟩ | ⟨hb, ha⟩
    · rw [ha] at h; cases h
      exact .load hpc (by simpa using hb)
    · rw [ha] at h; cases h
      simp only [Bool.or_eq_false_iff, decide_eq_false_iff_not] at hb
      exact .loadLost hpc hb.1 hb.2
  · rename_i st hpc
    by_cases hq : s.dataQueue = []
    · simp only [hq, List.isEmpty_nil, ↓reduceIte, Option.some.injEq] at h
      subst h
      simpa [hq] using MainStep.done hpc hq
    · rw [if_neg (by simpa using hq)] at h
      cases h
      exact .more hpc hq
  · rename_i st hpc
    split at h
    · cases h
    · rename_i dp rest hq; cases h; exact .dequeue hpc hq
  · rename_i st dp hpc
    split at h
    · rename_i hst; cases h; exact .skip hpc (.inl hst)
    · rename_i hst
      by_cases hlen : fieldDataLen < dp.length
      · simp only [sendUlog, hlen, ↓reduceIte, Option.some.injEq] at h
        subst h
        exact .skip hpc (.inr hlen)
      · simp only [sendUlog, hlen, ↓reduceIte, Option.some.injEq] at h
        subst h
        exact .send hpc hst (by omega)

inductive DiscardStep (s : MutelemetryStreamer) : MutelemetryStreamer → Prop
  | asleep : s.discard = .waiting → s.discarding = false → DiscardStep s s
  | start : s.discard = .waiting → s.discarding = true → DiscardStep s { s with discard := .loop }
  | more : s.discard = .loop → s.running = false → DiscardStep s { s with discard := .dequeue }
  | stop : s.discard = .loop → s.running = true → DiscardStep s { s with discard := .exited }
  | dequeue : s.discard = .dequeue → s.dataQueue = dp :: rest →
      DiscardStep s { s with dataQueue := rest, skipCntr := s.skipCntr + 1, discard := .loop }

theorem discardLoop_step {s s' : MutelemetryStreamer} (h : s.discardLoop = some s') :
    DiscardStep s s' := by
  unfold discardLoop at h
  split at h
  · rename_i hpc
    split at h <;> cases h
    · rename_i hd; exact .start hpc hd
    · rename_i hd; exact .asleep hpc (by simpa using hd)
  · rename_i hpc
    cases h
    split
    · rename_i hr; exact .stop hpc hr
    · rename_i hr; exact .more hpc (by simpa using hr)
  · rename_i hpc
    split at h
    · cases h
    · rename_i dp rest hq; cases h; exact .dequeue hpc hq
  · cases h

theorem protoCommandHandler_cases (s : MutelemetryStreamer) (command : Command)
    (sa : SparseAddress) (confirmation : Bool) :
    command = .other ∧ s.protoCommandHandler command sa confirmation = s ∨
    command ≠ .other ∧ s.protoCommandHandler command sa confirmation = { s with
      commands := s.commands ++ [⟨command, sa, confirmation, s.state, none⟩] } := by
  by_cases h : command = .other <;> simp [protoCommandHandler, h]

theorem protoLoggingAckHandler_cases (s : MutelemetryStreamer) (sa : SparseAddress)
    (sequence : UInt16) :
    s.state = .ackWait ∧
      s.protoLoggingAckHandler sa sequence = { s with acks := s.acks ++ [⟨sa, sequence, none⟩] } ∨
    s.state ≠ .ackWait ∧ s.protoLoggingAckHandler sa sequence = s := by
  by_cases h : s.state = .ackWait <;> simp [protoLoggingAckHandler, h]

inductive Verdict (s : MutelemetryStreamer) (call : CommandCall) :
    MutelemetryStreamer → StreamerState → Prop
  | connect : call.command = .loggingStart → call.state = .init →
      Verdict s call { s with
        targetSystem := call.sa.groupId.toUInt8
        targetComponent := call.sa.instanceId.toUInt8 } .connected
  | resume : call.command = .loggingStart → call.state = .stopped → s.isTarget call.sa = true →
      Verdict s call s .running
  | halt : call.command = .loggingStop → call.state = .running → s.isTarget call.sa = true →
      Verdict s call s .stopped
  | refuse : Verdict s call s .unknown

theorem compareCommand_verdict (s : MutelemetryStreamer) (call : CommandCall) :
    Verdict s call (s.compareCommand call).1 (s.compareCommand call).2 := by
  unfold compareCommand
  split
  · rename_i hc hst; exact .connect hc hst
  · rename_i hc hst
    cases ht : s.isTarget call.sa
    · exact .refuse
    · exact .resume hc hst ht
  · rename_i hc hst
    cases ht : s.isTarget call.sa
    · exact .refuse
    · exact .halt hc hst ht
  · exact .refuse

def Replies (ws : List Wire) : Prop := ∀ w ∈ ws, ∃ c b sa, w = .commandAck c b sa

inductive CommandStep (s : MutelemetryStreamer) (i : Nat) : MutelemetryStreamer → Prop
  | compare : s.commands[i]? = some call → call.newState = none → Verdict s call t newState →
      CommandStep s i { t with
        commands := s.commands.set i { call with newState := some newState } }
  | refuse : s.commands[i]? = some call → call.newState = some .unknown → Replies ws →
      CommandStep s i { s with commands := s.commands.eraseIdx i, wire := s.wire ++ ws }
  | exchange : s.commands[i]? = some call → call.newState = some newState →
      newState ≠ .unknown → Replies ws →
      CommandStep s i { s.exchange call.state newState with
        commands := s.commands.eraseIdx i, wire := s.wire ++ ws }

theorem commandStep_step {s s' : MutelemetryStreamer} (h : s.commandStep i = some s') :
    CommandStep s i s' := by
  unfold commandStep at h
  split at h
  · cases h
  · rename_i call hcall
    split at h
    · rename_i hnew
      cases h
      exact .compare hcall hnew (s.compareCommand_verdict call)
    · rename_i newState hnew
      -- the reply is sent only when the command asked for a confirmation
      obtain ⟨ws, hws, hwire⟩ : ∃ ws, Replies ws ∧ ∀ w : List Wire,
          (if call.confirmation then
            w ++ [.commandAck call.command (newState ≠ .unknown) call.sa] else w) = w ++ ws := by
        cases call.confirmation
        · exact ⟨[], by simp [Replies], by simp⟩
        · refine ⟨[_], fun w hw => ?_, fun w => rfl⟩
          exact ⟨_, _, _, List.mem_singleton.mp hw⟩
      by_cases hu : newState = .unknown
      · subst hu
        simp only [↓reduceIte, hwire, Option.some.injEq] at h
        subst h
        exact .refuse hcall hnew hws
      · simp only [hu, ↓reduceIte, hwire, Option.some.injEq] at h
        subst h
        exact .exchange hcall hnew hu hws

inductive AckStep (s : MutelemetryStreamer) (i : Nat) : MutelemetryStreamer → Prop
  | agrees : s.acks[i]? = some call → call.newState = none →
      call.sequence = UInt16.ofNat s.seq →
      AckStep s i { s with acks := s.acks.set i { call with newState := some .ackRecv } }
  | differs : s.acks[i]? = some call → call.newState = none →
      call.sequence ≠ UInt16.ofNat s.seq →
      AckStep s i { s with acks := s.acks.set i { call with newState := some .resendDef } }
  | exchange : s.acks[i]? = some call → call.newState = some newState →
      AckStep s i { s.exchange .ackWait newState with acks := s.acks.eraseIdx i }

theorem ackStep_step {s s' : MutelemetryStreamer} (h : s.ackStep i = some s') :
    AckStep s i s' := by
  unfold ackStep at h
  split at h
  · cases h
  · rename_i call hcall
    split at h
    · rename_i hnew
      by_cases hseq : call.sequence = UInt16.ofNat s.seq
      · simp only [hseq, ↓reduceIte, Option.some.injEq] at h
        subst h
        simpa [hseq] using AckStep.agrees hcall hnew hseq
      · simp only [hseq, ↓reduceIte, Option.some.injEq] at h
        subst h
        exact .differs hcall hnew hseq
    · rename_i newState hnew
      cases h
      exact .exchange hcall hnew

-- ---------------------------------------------------------------------------
-- Frames
-- ---------------------------------------------------------------------------

/-- The handlers touch the state, the target and their own calls; not the
queues, and not where the threads stand. -/
theorem handler_frame {s s' : MutelemetryStreamer} (hs : s.step e = some s') (he : e.Handler) :
    ∃ state failed targetSystem targetComponent commands acks wire, s' = { s with
      state := state, failed := failed, targetSystem := targetSystem,
      targetComponent := targetComponent, commands := commands, acks := acks, wire := wire } := by
  cases e with
  | enqueue | sync | discard | main => exact he.elim
  | command command sa confirmation =>
    cases hs
    obtain ⟨-, h⟩ | ⟨-, h⟩ := s.protoCommandHandler_cases command sa confirmation
    · exact ⟨_, _, _, _, _, _, _, h⟩
    · exact ⟨_, _, _, _, _, _, _, h⟩
  | commandStep i =>
    cases commandStep_step hs with
    | compare _ _ hv => cases hv <;> exact ⟨_, _, _, _, _, _, _, rfl⟩
    | refuse => exact ⟨_, _, _, _, _, _, _, rfl⟩
    | @exchange call answer =>
      obtain ⟨_, _, h⟩ := s.exchange_frame call.state answer
      rw [h]
      exact ⟨_, _, _, _, _, _, _, rfl⟩
  | loggingAck sa sequence =>
    cases hs
    obtain ⟨-, h⟩ | ⟨-, h⟩ := s.protoLoggingAckHandler_cases sa sequence
    · exact ⟨_, _, _, _, _, _, _, h⟩
    · exact ⟨_, _, _, _, _, _, _, h⟩
  | ackStep i =>
    cases ackStep_step hs with
    | agrees | differs => exact ⟨_, _, _, _, _, _, _, rfl⟩
    | @exchange call answer =>
      obtain ⟨_, _, h⟩ := s.exchange_frame .ackWait answer
      rw [h]
      exact ⟨_, _, _, _, _, _, _, rfl⟩

theorem SyncStep.main {s s' : MutelemetryStreamer} (hs : s.SyncStep s') : s'.main = s.main := by
  have hexchange (old new : StreamerState) : (s.exchange old new).main = s.main := by
    obtain ⟨_, _, h⟩ := s.exchange_frame old new
    rw [h]
  cases hs with
  | await | receive | resend => exact hexchange _ _
  | finalSet =>
    obtain ⟨_, h⟩ := s.setState_frame _ .running
    rw [h]
  | asleep | collect | begin | load | leave | send | refuse | next | rest | tick | unexpected
  | finalLoad | finalRun => rfl

-- ---------------------------------------------------------------------------
-- Assertions
-- ---------------------------------------------------------------------------

/-- Why an assertion fails in a step, where that is known from the state. -/
inductive Fails (s : MutelemetryStreamer) : Assertion → Prop
  | exchanged : Fails s .exchanged
  | target : s.sync = .loaded .connected → s.targetSystem = 0 ∨ s.targetComponent = 0 →
      Fails s .target
  | definitionSent : dp ∈ s.definitions → fieldDataLen < dp.length → Fails s .definitionSent
  | definitionState : Fails s .definitionState
  | mainState : Fails s .mainState

theorem failed_exchange (ha : a ∈ (exchange s old answer).failed) : a ∈ s.failed ∨ Fails s a := by
  obtain ⟨-, he⟩ | ⟨-, he⟩ := s.exchange_cases old answer
  · rw [he] at ha
    exact .inl ha
  · rw [he] at ha
    refine (List.mem_append.mp ha).imp id fun ha => ?_
    rw [List.mem_singleton.mp ha]
    exact .exchanged

theorem failed_sendDefinition (h : sendDefinition s st = some s') (ha : a ∈ s'.failed) :
    a ∈ s.failed ∨
      a = .definitionSent ∧ ∃ dp ∈ s.definitions, fieldDataLen < dp.length := by
  unfold sendDefinition at h
  split at h
  · cases h
  · rename_i dp hdp
    by_cases hlen : fieldDataLen < dp.length
    · simp only [sendUlogAck, hlen, ↓reduceIte, Option.some.injEq] at h
      subst h
      exact (List.mem_append.mp ha).imp id fun ha =>
        ⟨List.mem_singleton.mp ha, dp, List.mem_of_getElem? hdp, hlen⟩
    · simp only [sendUlogAck, hlen, ↓reduceIte, Option.some.injEq] at h
      subst h
      exact .inl ha

theorem failed_send (hpc : s.sync = .loaded st) (hst : st.Sends) (hs : syncLoop s = some s')
    (ha : a ∈ s'.failed) : a ∈ s.failed ∨ Fails s a := by
  rw [syncLoop, hpc] at hs
  have hlong : (a = .definitionSent ∧ ∃ dp ∈ s.definitions, fieldDataLen < dp.length) →
      Fails s a := by
    rintro ⟨rfl, dp, hdp, hlen⟩
    exact .definitionSent hdp hlen
  cases st with
  | connected =>
    obtain ⟨-, he⟩ | ⟨hz, he⟩ :=
      s.assert_cases (s.targetSystem ≠ 0 && s.targetComponent ≠ 0) .target
    · simp only [he] at hs
      exact (failed_sendDefinition hs ha).imp id hlong
    · simp only [he] at hs
      obtain ha | ha := failed_sendDefinition hs ha
      · refine (List.mem_append.mp ha).imp id fun ha => ?_
        rw [List.mem_singleton.mp ha]
        refine .target hpc ?_
        simpa [Decidable.or_iff_not_imp_left] using hz
      · exact .inr (hlong ha)
  | resendDef | sendDef => exact (failed_sendDefinition hs ha).imp id hlong
  | init | ackRecv | ackWait | running | stopped | unknown => exact hst.elim

theorem failed_step (hs : step s e = some s') (ha : a ∈ s'.failed) : a ∈ s.failed ∨ Fails s a := by
  cases e with
  | enqueue dp =>
    cases hs
    exact .inl ha
  | sync =>
    cases syncLoop_step hs with
    | send hpc hst | refuse hpc hst => exact failed_send hpc hst hs ha
    | await | receive | resend => exact failed_exchange ha
    | unexpected =>
      refine (List.mem_append.mp ha).imp id fun ha => ?_
      rw [List.mem_singleton.mp ha]
      exact .definitionState
    | finalSet =>
      obtain ⟨_, he⟩ := s.setState_frame _ .running
      rw [he] at ha
      exact .inl ha
    | asleep | collect | begin | load | leave | next | rest | tick | finalLoad | finalRun =>
      exact .inl ha
  | discard => cases discardLoop_step hs <;> exact .inl ha
  | main =>
    cases mainLoop_step hs with
    | loadLost =>
      refine (List.mem_append.mp ha).imp id fun ha => ?_
      rw [List.mem_singleton.mp ha]
      exact .mainState
    | notRunning | enter | load | done | more | dequeue | skip | send => exact .inl ha
  | command command sa confirmation =>
    cases hs
    obtain ⟨-, he⟩ | ⟨-, he⟩ := s.protoCommandHandler_cases command sa confirmation
    · rw [he] at ha
      exact .inl ha
    · rw [he] at ha
      exact .inl ha
  | commandStep i =>
    cases commandStep_step hs with
    | compare _ _ hv => cases hv <;> exact .inl ha
    | refuse => exact .inl ha
    | exchange => exact failed_exchange ha
  | loggingAck sa sequence =>
    cases hs
    obtain ⟨-, he⟩ | ⟨-, he⟩ := s.protoLoggingAckHandler_cases sa sequence
    · rw [he] at ha
      exact .inl ha
    · rw [he] at ha
      exact .inl ha
  | ackStep i =>
    cases ackStep_step hs with
    | agrees | differs => exact .inl ha
    | exchange => exact failed_exchange ha

theorem run_enqueue (s : MutelemetryStreamer) (ms : List Bytes) :
    Transition.run step s (ms.map .enqueue) =
      some { s with dataQueue := s.dataQueue ++ ms } := by
  induction ms generalizing s with
  | nil => simp
  | cons m ms ih =>
    have hrest := ih { s with dataQueue := s.dataQueue ++ [m] }
    rw [List.append_assoc] at hrest
    exact Transition.run_cons.mpr ⟨_, rfl, hrest⟩

end MutelemetryStreamer

end Mutelemetry.Network
