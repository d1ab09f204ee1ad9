import Mutelemetry.Network.Phase

/-!
# The asserted exchanges

Six sites load `state_` and later assert that their compare-exchange from the
loaded value took effect. `Awaits` says that an actor stands between the two,
`Takes` that a step moves `state_`. As long as no step takes `state_` from
under an actor that awaits it, every exchange takes effect; and a step that
does makes the assertion reachable by the steps of that actor alone.
-/

namespace Mutelemetry.Network

open Ulog StreamerState

namespace MutelemetryStreamer

-- ---------------------------------------------------------------------------
-- Who waits for what
-- ---------------------------------------------------------------------------

/-- `sync_loop` has an exchange from `v` ahead of it. In ACK_WAIT that is so
only when the sleep before the next `sync_timeout_ += 50` is the last one. -/
inductive SyncAwaits (s : MutelemetryStreamer) : StreamerState → Prop
  | send : s.sync = .loaded st → st.Sends → s.definitions[s.seq]? = some dp →
      dp.length ≤ fieldDataLen → SyncAwaits s st
  | sent : s.sync = .sent st → SyncAwaits s st
  | receive : s.sync = .loaded .ackRecv → SyncAwaits s .ackRecv
  | tick : s.sync = .loaded .ackWait → s.syncTimeout + 50 = 1000 → SyncAwaits s .ackWait
  | timeout : s.sync = .timeout → SyncAwaits s .ackWait

def CallAwaits (s : MutelemetryStreamer) (call : CommandCall) : Prop :=
  call.newState.getD (s.compareCommand call).2 ≠ .unknown

/-- The actor that takes the steps `e` has an asserted exchange from `v` ahead
of it. -/
inductive Awaits (s : MutelemetryStreamer) : Event → StreamerState → Prop
  | sync : s.SyncAwaits v → Awaits s .sync v
  | command : s.commands[i]? = some call → s.CallAwaits call →
      Awaits s (.commandStep i) call.state
  | ack : s.acks[i]? = some call → Awaits s (.ackStep i) .ackWait

inductive Takes (s : MutelemetryStreamer) : Event → Prop
  | await : s.sync = .sent s.state → Takes s .sync
  | receive : s.sync = .loaded .ackRecv → s.state = .ackRecv → Takes s .sync
  | resend : s.sync = .timeout → s.state = .ackWait → Takes s .sync
  | final : s.sync = .finalSet s.state → Takes s .sync
  | command : s.commands[i]? = some call → call.newState = some answer → answer ≠ .unknown →
      s.state = call.state → Takes s (.commandStep i)
  | ack : s.acks[i]? = some call → call.newState = some answer → s.state = .ackWait →
      Takes s (.ackStep i)

/-- The step does not take `state_` from under another actor. -/
def Undisturbed (s : MutelemetryStreamer) (e : Event) : Prop :=
  s.Takes e → ∀ e', s.Awaits e' s.state → e' = e

/-- Every actor that awaits a value finds it. -/
structure Fresh (s : MutelemetryStreamer) : Prop where
  sync : ∀ v, s.SyncAwaits v → s.state = v
  commands : ∀ call ∈ s.commands, s.CallAwaits call → s.state = call.state
  acks : s.acks ≠ [] → s.state = .ackWait
  /-- INIT is not entered again. -/
  init : s.state = .init → ∀ call ∈ s.commands, call.state = .init
  exchanged : .exchanged ∉ s.failed

variable {s s' : MutelemetryStreamer}

theorem Fresh.awaits (h : Fresh s) (ha : s.Awaits e v) : s.state = v := by
  cases ha with
  | sync ha => exact h.sync _ ha
  | command hc ha => exact h.commands _ (List.mem_of_getElem? hc) ha
  | ack hc => exact h.acks (List.ne_nil_of_mem (List.mem_of_getElem? hc))

/-- Only the actor of an undisturbed exchange awaits anything. -/
theorem Fresh.alone (h : Fresh s) (hu : s.Undisturbed e) (ht : s.Takes e) (ha : s.Awaits e' v) :
    e' = e := by
  cases h.awaits ha
  exact hu ht e' ha

theorem compareCommand_congr (h : s'.targetSystem = s.targetSystem)
    (h' : s'.targetComponent = s.targetComponent) (call : CommandCall) :
    (s'.compareCommand call).2 = (s.compareCommand call).2 := by
  unfold compareCommand
  split <;> simp [isTarget, h, h']

theorem CallAwaits.congr (ha : s.CallAwaits call) (h : s'.targetSystem = s.targetSystem)
    (h' : s'.targetComponent = s.targetComponent) : s'.CallAwaits call := by
  rwa [CallAwaits, compareCommand_congr h h']

theorem callAwaits_init (h : call.state = .init) : s'.CallAwaits call ↔ s.CallAwaits call := by
  simp only [CallAwaits, compareCommand, h]
  cases call.command <;> rfl

theorem SyncAwaits.congr (h : s.SyncAwaits v) (hpc : s'.sync = s.sync)
    (hdefs : s'.definitions = s.definitions) (hseq : s'.seq = s.seq)
    (ht : s'.syncTimeout = s.syncTimeout) : s'.SyncAwaits v := by
  cases h with
  | send h hst hdp hlen => exact .send (hpc ▸ h) hst (hdefs ▸ hseq ▸ hdp) hlen
  | sent h => exact .sent (hpc ▸ h)
  | receive h => exact .receive (hpc ▸ h)
  | tick h h' => exact .tick (hpc ▸ h) (ht ▸ h')
  | timeout h => exact .timeout (hpc ▸ h)

theorem Fresh.frame (h : Fresh s) (hstate : s'.state = s.state)
    (hc : s'.commands = s.commands) (ha : s'.acks = s.acks)
    (ht : s'.targetSystem = s.targetSystem) (ht' : s'.targetComponent = s.targetComponent)
    (hs : ∀ v, s'.SyncAwaits v → s.state = v) (hf : .exchanged ∉ s'.failed) : Fresh s' where
  sync := hstate ▸ hs
  commands := by
    intro call hcall ha
    rw [hstate]
    exact h.commands call (hc ▸ hcall) (ha.congr ht.symm ht'.symm)
  acks := by
    rw [ha, hstate]
    exact h.acks
  init := by
    rw [hc, hstate]
    exact h.init
  exchanged := hf

theorem Fresh.taken (h : Fresh s) (hu : s.Undisturbed .sync) (htake : s.Takes .sync)
    (hstate : s'.state ≠ .init) (hc : s'.commands = s.commands) (ha : s'.acks = s.acks)
    (ht : s'.targetSystem = s.targetSystem) (ht' : s'.targetComponent = s.targetComponent)
    (hs : ∀ v, ¬ s'.SyncAwaits v) (hf : .exchanged ∉ s'.failed) : Fresh s' where
  sync := fun v hv => (hs v hv).elim
  commands := by
    intro call hcall haw
    obtain ⟨i, hi⟩ := List.getElem?_of_mem (hc ▸ hcall)
    cases h.alone hu htake (.command hi (haw.congr ht.symm ht'.symm))
  acks := by
    intro hne
    obtain ⟨call, hcall⟩ := List.exists_mem_of_ne_nil _ (ha ▸ hne)
    obtain ⟨i, hi⟩ := List.getElem?_of_mem hcall
    cases h.alone hu htake (.ack hi)
  init := fun hi => (hstate hi).elim
  exchanged := hf

-- ---------------------------------------------------------------------------
-- Undisturbed steps
-- ---------------------------------------------------------------------------

theorem Fresh.syncStep (h : Fresh s) (hu : s.Undisturbed .sync) (hs : s.SyncStep s') :
    Fresh s' := by
  cases hs with
  | asleep => exact h
  | collect hpc | begin hpc | load hpc | leave hpc | next hpc | rest hpc | finalLoad hpc
  | finalRun hpc =>
    refine h.frame rfl rfl rfl rfl rfl (fun v hv => ?_) h.exchanged
    cases hv <;> simp_all
  | tick hpc hpc' =>
    refine h.frame rfl rfl rfl rfl rfl (fun v hv => ?_) h.exchanged
    rcases hpc' with ⟨rfl, -⟩ | ⟨rfl, ht⟩
    · cases hv <;> simp_all
    · have hst := h.sync _ (.tick hpc ht)
      cases hv <;> simp_all
  | unexpected hpc =>
    refine h.frame rfl rfl rfl rfl rfl (fun v hv => ?_) ?_
    · cases hv <;> simp_all
    · simpa using h.exchanged
  | send hpc hst hdp hlen hlost =>
    refine h.frame rfl rfl rfl rfl rfl (fun v hv => ?_) ?_
    · have hst := h.sync _ (.send hpc hst hdp hlen)
      cases hv <;> simp_all
    · simp only [List.mem_append, not_or]
      exact ⟨h.exchanged, fun he => by cases hlost _ he⟩
  | refuse hpc hst hdp hlen hlost =>
    refine h.frame rfl rfl rfl rfl rfl (fun v hv => ?_) ?_
    · cases hv <;> simp_all
    · simp only [List.mem_append, not_or]
      exact ⟨h.exchanged, fun he => by rcases hlost _ he with he | he <;> cases he⟩
  | await hpc =>
    have hst := h.sync _ (.sent hpc)
    rw [exchange_eq hst]
    exact h.taken hu (.await (hst ▸ hpc)) (by simp) rfl rfl rfl rfl
      (fun v hv => by cases hv <;> simp_all) h.exchanged
  | receive hpc =>
    have hst := h.sync _ (.receive hpc)
    rw [exchange_eq hst]
    exact h.taken hu (.receive hpc hst) (by simp) rfl rfl rfl rfl
      (fun v hv => by cases hv <;> simp_all) h.exchanged
  | resend hpc =>
    have hst := h.sync _ (.timeout hpc)
    rw [exchange_eq hst]
    exact h.taken hu (.resend hpc hst) (by simp) rfl rfl rfl rfl
      (fun v hv => by cases hv <;> simp_all) h.exchanged
  | finalSet hpc =>
    rcases s.setState_cases _ .running with ⟨hst, he⟩ | ⟨-, he⟩ <;> rw [he]
    · exact h.taken hu (.final (hst ▸ hpc)) (by simp) rfl rfl rfl rfl
        (fun v hv => by cases hv <;> simp_all) h.exchanged
    · refine h.frame rfl rfl rfl rfl rfl (fun v hv => ?_) h.exchanged
      cases hv <;> simp_all

theorem Fresh.mainStep (h : Fresh s) (hs : s.MainStep s') : Fresh s' := by
  cases hs with
  | notRunning => exact h
  | enter | load | done | more | dequeue | skip | send =>
    exact h.frame rfl rfl rfl rfl rfl (fun v hv => h.sync v (hv.congr rfl rfl rfl rfl)) h.exchanged
  | loadLost =>
    exact h.frame rfl rfl rfl rfl rfl (fun v hv => h.sync v (hv.congr rfl rfl rfl rfl))
      (by simpa using h.exchanged)

theorem Fresh.discardStep (h : Fresh s) (hs : s.DiscardStep s') : Fresh s' := by
  cases hs with
  | asleep => exact h
  | start | more | stop | dequeue =>
    exact h.frame rfl rfl rfl rfl rfl (fun v hv => h.sync v (hv.congr rfl rfl rfl rfl)) h.exchanged

theorem Fresh.last (h : Fresh s) (hu : s.Undisturbed e) (ht : s.Takes e) (hne : e ≠ .sync)
    (hstate : s'.state ≠ .init) (hsync : ∀ v, s'.SyncAwaits v → s.SyncAwaits v)
    (hc : ∀ call ∈ s'.commands, s'.CallAwaits call →
      ∃ i, s.commands[i]? = some call ∧ s.CallAwaits call ∧ e ≠ .commandStep i)
    (ha : ∀ call ∈ s'.acks, ∃ i, s.acks[i]? = some call ∧ e ≠ .ackStep i)
    (hf : .exchanged ∉ s'.failed) : Fresh s' where
  sync := fun v hv => (hne (h.alone hu ht (.sync (hsync v hv))).symm).elim
  commands := by
    intro call hcall haw
    obtain ⟨i, hi, haw, hei⟩ := hc call hcall haw
    exact (hei (h.alone hu ht (.command hi haw)).symm).elim
  acks := by
    intro hnil
    obtain ⟨call, hcall⟩ := List.exists_mem_of_ne_nil _ hnil
    obtain ⟨i, hi, hei⟩ := ha call hcall
    exact (hei (h.alone hu ht (.ack hi)).symm).elim
  init := fun hi => (hstate hi).elim
  exchanged := hf

theorem Fresh.ackStep (h : Fresh s) (hp : Phase s) (hu : s.Undisturbed (.ackStep i))
    (hs : s.AckStep i s') : Fresh s' := by
  cases hs with
  | agrees hcall | differs hcall =>
    exact {
      sync := fun v hv => h.sync v (hv.congr rfl rfl rfl rfl)
      commands := fun call hc ha => h.commands call hc (ha.congr rfl rfl)
      acks := fun _ => h.acks (List.ne_nil_of_mem (List.mem_of_getElem? hcall))
      init := h.init
      exchanged := h.exchanged }
  | exchange hcall hnew =>
    have hst := h.awaits (.ack hcall)
    have ho := hp.acks _ (List.mem_of_getElem? hcall) _ hnew
    rw [exchange_eq hst]
    refine h.last hu (.ack hcall hnew hst) (by simp) ho.ne_init
      (fun v hv => hv.congr rfl rfl rfl rfl) ?_ ?_ h.exchanged
    · intro call hc ha
      obtain ⟨j, hj⟩ := List.getElem?_of_mem hc
      exact ⟨j, hj, ha.congr rfl rfl, by simp⟩
    · intro call hc
      obtain ⟨j, hji, hj⟩ := List.mem_eraseIdx_iff_getElem?.mp hc
      exact ⟨j, hj, by simpa using hji.symm⟩

theorem Fresh.answered (h : Fresh s) (hcall : s.commands[i]? = some call)
    (hst : answer ≠ .unknown → s.state = call.state)
    (ht : ∀ other ∈ s.commands, s'.CallAwaits other → s.CallAwaits other)
    (hstate : s'.state = s.state) (hc : s'.commands = s.commands.set i { call with newState := some answer })
    (ha : s'.acks = s.acks) (hs : ∀ v, s'.SyncAwaits v → s.SyncAwaits v)
    (hf : s'.failed = s.failed) : Fresh s' where
  sync := fun v hv => hstate ▸ h.sync v (hs v hv)
  commands := by
    intro other ho haw
    rw [hstate]
    rcases List.mem_or_eq_of_mem_set (hc ▸ ho) with ho | rfl
    · exact h.commands other ho (ht other ho haw)
    · exact hst haw
  acks := by
    rw [ha, hstate]
    exact h.acks
  init := by
    rw [hc, hstate]
    intro hi other ho
    rcases List.mem_or_eq_of_mem_set ho with ho | rfl
    · exact h.init hi other ho
    · exact h.init hi call (List.mem_of_getElem? hcall)
  exchanged := hf ▸ h.exchanged

theorem Fresh.commandStep (h : Fresh s) (hp : Phase s) (hu : s.Undisturbed (.commandStep i))
    (hs : s.CommandStep i s') : Fresh s' := by
  cases hs with
  | compare hcall hnew hv =>
    have found (ha : s.CallAwaits _) := h.commands _ (List.mem_of_getElem? hcall) ha
    cases hv with
    | connect hcmd hst =>
      have hi : s.state = .init := by
        rw [← hst]
        exact found (by simp [CallAwaits, compareCommand, hnew, hcmd, hst])
      refine h.answered hcall (fun _ => hi.trans hst.symm) ?_ rfl rfl rfl
        (fun v hv => hv.congr rfl rfl rfl rfl) rfl
      exact fun other ho => (callAwaits_init (h.init hi other ho)).mp
    | resume hcmd hst ht =>
      refine h.answered hcall (fun _ => found ?_) ?_ rfl rfl rfl
        (fun v hv => hv.congr rfl rfl rfl rfl) rfl
      · simp [CallAwaits, compareCommand, hnew, hcmd, hst, ht]
      · exact fun other _ ha => ha.congr rfl rfl
    | halt hcmd hst ht =>
      refine h.answered hcall (fun _ => found ?_) ?_ rfl rfl rfl
        (fun v hv => hv.congr rfl rfl rfl rfl) rfl
      · simp [CallAwaits, compareCommand, hnew, hcmd, hst, ht]
      · exact fun other _ ha => ha.congr rfl rfl
    | refuse =>
      refine h.answered hcall (fun hu => (hu rfl).elim) ?_ rfl rfl rfl
        (fun v hv => hv.congr rfl rfl rfl rfl) rfl
      exact fun other _ ha => ha.congr rfl rfl
  | refuse hcall hnew =>
    exact {
      sync := fun v hv => h.sync v (hv.congr rfl rfl rfl rfl)
      commands := fun call hc ha =>
        h.commands call (List.mem_of_mem_eraseIdx hc) (ha.congr rfl rfl)
      acks := h.acks
      init := fun hi call hc => h.init hi call (List.mem_of_mem_eraseIdx hc)
      exchanged := h.exchanged }
  | exchange hcall hnew hne =>
    have hst := h.awaits (.command hcall (by simpa [CallAwaits, hnew] using hne))
    have ho := ((hp.commands _ (List.mem_of_getElem? hcall) _ hnew).resolve_left hne).1
    rw [exchange_eq hst]
    refine h.last hu (.command hcall hnew hne hst) (by simp) ho.ne_init
      (fun v hv => hv.congr rfl rfl rfl rfl) ?_ ?_ h.exchanged
    · intro call hc ha
      obtain ⟨j, hji, hj⟩ := List.mem_eraseIdx_iff_getElem?.mp hc
      exact ⟨j, hj, ha.congr rfl rfl, by simpa using hji.symm⟩
    · intro call hc
      obtain ⟨j, hj⟩ := List.getElem?_of_mem hc
      exact ⟨j, hj, by simp⟩

theorem Fresh.step (h : Fresh s) (hp : Phase s) (hu : s.Undisturbed e) (hs : s.step e = some s') :
    Fresh s' := by
  cases e with
  | enqueue dp =>
    cases hs
    exact h.frame rfl rfl rfl rfl rfl (fun v hv => h.sync v (hv.congr rfl rfl rfl rfl)) h.exchanged
  | sync => exact h.syncStep hu (syncLoop_step hs)
  | discard => exact h.discardStep (discardLoop_step hs)
  | main => exact h.mainStep (mainLoop_step hs)
  | command command sa confirmation =>
    cases hs
    rcases s.protoCommandHandler_cases command sa confirmation with ⟨-, he⟩ | ⟨-, he⟩ <;> rw [he]
    · exact h
    · exact {
        sync := fun v hv => h.sync v (hv.congr rfl rfl rfl rfl)
        commands := by
          intro call hc ha
          rcases List.mem_append.mp hc with hc | hc
          · exact h.commands call hc (ha.congr rfl rfl)
          · rw [List.mem_singleton.mp hc]
        acks := h.acks
        init := by
          intro hi call hc
          rcases List.mem_append.mp hc with hc | hc
          · exact h.init hi call hc
          · rw [List.mem_singleton.mp hc]
            exact hi
        exchanged := h.exchanged }
  | commandStep i => exact h.commandStep hp hu (commandStep_step hs)
  | loggingAck sa sequence =>
    cases hs
    rcases s.protoLoggingAckHandler_cases sa sequence with ⟨hst, he⟩ | ⟨-, he⟩ <;> rw [he]
    · exact {
        sync := fun v hv => h.sync v (hv.congr rfl rfl rfl rfl)
        commands := fun call hc ha => h.commands call hc (ha.congr rfl rfl)
        acks := fun _ => hst
        init := h.init
        exchanged := h.exchanged }
    · exact h
  | ackStep i => exact h.ackStep hp hu (ackStep_step hs)

theorem fresh_new (rt : Bool) : Fresh (.new rt) where
  sync := fun v hv => by cases hv <;> simp_all [MutelemetryStreamer.new]
  commands := by simp [MutelemetryStreamer.new]
  acks := by simp [MutelemetryStreamer.new]
  init := by simp [MutelemetryStreamer.new]
  exchanged := by simp [MutelemetryStreamer.new]

-- ---------------------------------------------------------------------------
-- Disturbed steps
-- ---------------------------------------------------------------------------

/-- An exchange that fails is some steps away. -/
def Breaks (s : MutelemetryStreamer) : Prop :=
  ∃ es s', Transition.run step s es = some s' ∧ .exchanged ∈ s'.failed

theorem exchanged_mem_of_ne (h : s.state ≠ old) (new : StreamerState) :
    .exchanged ∈ (s.exchange old new).failed := by
  rcases s.exchange_cases old new with ⟨he, -⟩ | ⟨-, he⟩
  · exact (h he).elim
  · simp [he]

theorem Breaks.step (h : Breaks s') (hs : s.step e = some s') : Breaks s := by
  obtain ⟨es, t, ht, hf⟩ := h
  exact ⟨e :: es, t, Transition.run_cons.mpr ⟨s', hs, ht⟩, hf⟩

theorem breaks_of_failed (hs : s.step e = some s') (hf : .exchanged ∈ s'.failed) : Breaks s :=
  Breaks.step ⟨[], s', rfl, hf⟩ hs

theorem syncLoop_sent (h : s.sync = .sent st) :
    s.step .sync = some { s.exchange st .ackWait with sync := .loop } := by
  rw [step, syncLoop, h]

theorem syncLoop_timeout (h : s.sync = .timeout) :
    s.step .sync = some { s.exchange .ackWait .resendDef with sync := .loop } := by
  rw [step, syncLoop, h]

theorem syncLoop_receive (h : s.sync = .loaded .ackRecv) :
    s.step .sync = some { s.exchange .ackRecv .sendDef with sync := .received } := by
  rw [step, syncLoop, h]

theorem syncLoop_tick (h : s.sync = .loaded .ackWait) (ht : s.syncTimeout + 50 = 1000) :
    s.step .sync = some { s with syncTimeout := 1000, sync := .timeout } := by
  rw [step, syncLoop, h]
  simp only [ht, ↓reduceIte]

theorem sendDefinition_sent (hdp : s.definitions[s.seq]? = some dp)
    (hlen : dp.length ≤ fieldDataLen) (st : StreamerState) :
    ∃ t, s.sendDefinition st = some t ∧ t.sync = .sent st ∧ t.state = s.state := by
  rw [sendDefinition, hdp]
  simp only [sendUlogAck, Nat.not_lt.mpr hlen, ↓reduceIte]
  exact ⟨_, rfl, rfl, rfl⟩

theorem syncLoop_send (h : s.sync = .loaded st) (hst : st.Sends)
    (hdp : s.definitions[s.seq]? = some dp) (hlen : dp.length ≤ fieldDataLen) :
    ∃ t, s.step .sync = some t ∧ t.sync = .sent st ∧ t.state = s.state := by
  cases st with
  | connected =>
    rw [step, syncLoop, h]
    rcases s.assert_cases (s.targetSystem ≠ 0 && s.targetComponent ≠ 0) .target with
      ⟨-, ha⟩ | ⟨-, ha⟩ <;> simp only [ha]
    · exact sendDefinition_sent hdp hlen _
    · exact sendDefinition_sent (by exact hdp) hlen _
  | resendDef =>
    rw [step, syncLoop, h]
    exact sendDefinition_sent hdp hlen _
  | sendDef =>
    rw [step, syncLoop, h]
    exact sendDefinition_sent hdp hlen _
  | init | ackRecv | ackWait | running | stopped | unknown => exact hst.elim

theorem SyncAwaits.breaks (h : s.SyncAwaits v) (hne : s.state ≠ v) : Breaks s := by
  cases h with
  | sent hpc => exact breaks_of_failed (syncLoop_sent hpc) (exchanged_mem_of_ne hne _)
  | timeout hpc => exact breaks_of_failed (syncLoop_timeout hpc) (exchanged_mem_of_ne hne _)
  | receive hpc => exact breaks_of_failed (syncLoop_receive hpc) (exchanged_mem_of_ne hne _)
  | tick hpc ht =>
    refine Breaks.step (breaks_of_failed (syncLoop_timeout rfl) ?_) (syncLoop_tick hpc ht)
    exact exchanged_mem_of_ne (by exact hne) _
  | send hpc hst hdp hlen =>
    obtain ⟨t, ht, hpc, hstate⟩ := syncLoop_send hpc hst hdp hlen
    exact (breaks_of_failed (syncLoop_sent hpc) (exchanged_mem_of_ne (hstate ▸ hne) _)).step ht

theorem commandStep_compare {i : Nat} (hcall : s.commands[i]? = some call)
    (hn : call.newState = none) :
    ∃ t, s.step (.commandStep i) = some t ∧ t.state = s.state ∧
      t.commands[i]? = some { call with newState := some (s.compareCommand call).2 } := by
  obtain ⟨hi, -⟩ := List.getElem?_eq_some_iff.mp hcall
  simp only [step, commandStep, hcall, hn]
  refine ⟨_, rfl, ?_, by simp [hi]⟩
  unfold compareCommand
  split <;> rfl

theorem commandStep_answer {i : Nat} (hcall : s.commands[i]? = some call)
    (hn : call.newState = some answer) (hu : answer ≠ .unknown) :
    ∃ t, s.step (.commandStep i) = some t ∧ t.failed = (s.exchange call.state answer).failed := by
  simp only [step, commandStep, hcall, hn, hu, ↓reduceIte]
  exact ⟨_, rfl, rfl⟩

theorem ackStep_compare {i : Nat} (hcall : s.acks[i]? = some call) (hn : call.newState = none) :
    ∃ t answer, s.step (.ackStep i) = some t ∧ t.state = s.state ∧
      t.acks[i]? = some { call with newState := some answer } := by
  obtain ⟨hi, -⟩ := List.getElem?_eq_some_iff.mp hcall
  simp only [step, ackStep, hcall, hn]
  exact ⟨_, _, rfl, rfl, List.getElem?_set_self hi⟩

theorem ackStep_answer {i : Nat} (hcall : s.acks[i]? = some call)
    (hn : call.newState = some answer) :
    ∃ t, s.step (.ackStep i) = some t ∧ t.failed = (s.exchange .ackWait answer).failed := by
  simp only [step, ackStep, hcall, hn]
  exact ⟨_, rfl, rfl⟩

/-- An actor that no longer finds what it loaded fails by its own steps. -/
theorem Awaits.breaks (h : s.Awaits e v) (hne : s.state ≠ v) : Breaks s := by
  cases h with
  | sync h => exact h.breaks hne
  | @command i call hcall h =>
    -- the call answers, then exchanges
    have answered {t : MutelemetryStreamer} {c : CommandCall} {answer : StreamerState}
        (hc : t.commands[i]? = some c) (hn : c.newState = some answer) (hu : answer ≠ .unknown)
        (hst : t.state ≠ c.state) : Breaks t := by
      obtain ⟨u, hu, hf⟩ := commandStep_answer hc hn hu
      exact breaks_of_failed hu (hf ▸ exchanged_mem_of_ne hst answer)
    cases hn : call.newState with
    | some answer => exact answered hcall hn (by simpa [CallAwaits, hn] using h) hne
    | none =>
      obtain ⟨t, ht, hst, hc⟩ := commandStep_compare hcall hn
      refine Breaks.step (answered hc rfl ?_ (hst ▸ hne)) ht
      simpa [CallAwaits, hn] using h
  | @ack i call hcall =>
    have answered {t : MutelemetryStreamer} {c : AckCall} {answer : StreamerState}
        (hc : t.acks[i]? = some c) (hn : c.newState = some answer) (hst : t.state ≠ .ackWait) :
        Breaks t := by
      obtain ⟨u, hu, hf⟩ := ackStep_answer hc hn
      exact breaks_of_failed hu (hf ▸ exchanged_mem_of_ne hst answer)
    cases hn : call.newState with
    | some answer => exact answered hcall hn hne
    | none =>
      obtain ⟨t, answer, ht, hst, hc⟩ := ackStep_compare hcall hn
      exact (answered hc rfl (hst ▸ hne)).step ht

theorem getElem?_eraseIdx_of_ne {l : List β} {i j : Nat} (h : l[j]? = some x) (hij : j ≠ i) :
    ∃ k : Nat, (l.eraseIdx i)[k]? = some x :=
  List.getElem?_of_mem (List.mem_eraseIdx_iff_getElem?.mpr ⟨j, hij, h⟩)

theorem Takes.sync_moves (hp : Phase s) (ht : s.Takes .sync) (hs : s.step .sync = some s') :
    s'.state ≠ s.state ∧ s'.commands = s.commands ∧ s'.acks = s.acks ∧
      s'.targetSystem = s.targetSystem ∧ s'.targetComponent = s.targetComponent := by
  have hsync := hp.sync
  cases ht with
  | await hpc =>
    rw [syncLoop_sent hpc, exchange_eq rfl] at hs
    cases hs
    rw [hpc] at hsync
    refine ⟨?_, rfl, rfl, rfl, rfl⟩
    rintro (he : StreamerState.ackWait = s.state)
    exact (he ▸ hsync.1 : StreamerState.Sends .ackWait).elim
  | receive hpc hst =>
    rw [syncLoop_receive hpc, exchange_eq hst] at hs
    cases hs
    exact ⟨by simp [hst], rfl, rfl, rfl, rfl⟩
  | resend hpc hst =>
    rw [syncLoop_timeout hpc, exchange_eq hst] at hs
    cases hs
    exact ⟨by simp [hst], rfl, rfl, rfl, rfl⟩
  | final hpc =>
    rw [step, syncLoop, hpc] at hs
    simp only [setState, ↓reduceIte, Option.some.injEq] at hs
    subst hs
    rw [hpc] at hsync
    refine ⟨?_, rfl, rfl, rfl, rfl⟩
    rintro (he : StreamerState.running = s.state)
    rcases hsync.1 with hst | ⟨-, hst | hst⟩ <;> rw [hst] at he <;> cases he

/-- The other actors still await what they loaded. -/
theorem Awaits.survives (hp : Phase s) (h : s.Awaits e' v) (hne : e' ≠ e) (ht : s.Takes e)
    (hs : s.step e = some s') : s'.state ≠ s.state ∧ ∃ e'', s'.Awaits e'' v := by
  by_cases hes : e = .sync
  · subst hes
    obtain ⟨hmoved, hc, ha, htg, htg'⟩ := ht.sync_moves hp hs
    refine ⟨hmoved, ?_⟩
    cases h with
    | sync => exact (hne rfl).elim
    | command hother h => exact ⟨_, .command (hc ▸ hother) (h.congr htg htg')⟩
    | ack hother => exact ⟨_, .ack (ha ▸ hother)⟩
  cases ht with
  | await | receive | resend | final => exact (hes rfl).elim
  | @command i call answer hcall hn hu hst =>
    have ho := ((hp.commands _ (List.mem_of_getElem? hcall) _ hn).resolve_left hu).1
    simp only [step, commandStep, hcall, hn, hu, ↓reduceIte, exchange_eq hst,
      Option.some.injEq] at hs
    subst hs
    refine ⟨hst ▸ ho.ne.symm, ?_⟩
    cases h with
    | sync h => exact ⟨_, .sync (h.congr rfl rfl rfl rfl)⟩
    | @command j other hother h =>
      obtain ⟨k, hk⟩ := getElem?_eraseIdx_of_ne hother (by simpa using hne)
      exact ⟨_, .command hk (h.congr rfl rfl)⟩
    | ack hother => exact ⟨_, .ack hother⟩
  | @ack i call answer hcall hn hst =>
    have ho := hp.acks _ (List.mem_of_getElem? hcall) _ hn
    simp only [step, ackStep, hcall, hn, exchange_eq hst, Option.some.injEq] at hs
    subst hs
    refine ⟨hst ▸ ho.ne.symm, ?_⟩
    cases h with
    | sync h => exact ⟨_, .sync (h.congr rfl rfl rfl rfl)⟩
    | command hother h => exact ⟨_, .command hother (h.congr rfl rfl)⟩
    | @ack j other hother =>
      obtain ⟨k, hk⟩ := getElem?_eraseIdx_of_ne hother (by simpa using hne)
      exact ⟨_, .ack hk⟩

-- ---------------------------------------------------------------------------
-- Runs
-- ---------------------------------------------------------------------------

theorem fresh_of_guarded (h : Transition.Guarded step Undisturbed (.new rt) es s) : Fresh s :=
  (h.invariant (fun s => Phase s ∧ Fresh s)
    (fun ⟨hp, hf⟩ hu hs => ⟨hp.step hs, hf.step hp hu hs⟩) ⟨phase_new rt, fresh_new rt⟩).2

/-- In a run of undisturbed steps every asserted exchange takes effect. After
any other step of any run, some continuation fails an assertion. -/
theorem exchanges_asserted (rt : Bool) :
    (∀ es s, Transition.Guarded step Undisturbed (.new rt) es s → .exchanged ∉ s.failed) ∧
    ∀ s e s', Transition.Reachable step (.new rt) s → ¬ s.Undisturbed e → s.step e = some s' →
      ∃ es s'', Transition.run step s' es = some s'' ∧ .exchanged ∈ s''.failed := by
  refine ⟨fun es s h => (fresh_of_guarded h).exchanged, fun s e s' hr hu hs => ?_⟩
  simp only [Undisturbed, Classical.not_imp, not_forall] at hu
  obtain ⟨ht, e', ha, hne⟩ := hu
  obtain ⟨hstate, e'', ha⟩ := ha.survives (phase_of_reachable hr) hne ht hs
  exact ha.breaks hstate

/-- An acknowledgement exchanges ACK_WAIT during the last of the sleeps that
make 1000 ms, before `sync_loop` asserts its own exchange from it. -/
theorem ack_during_timeout :
    ¬ ∀ es s, Transition.run step (.new false) es = some s → .exchanged ∉ s.failed := by
  intro h
  refine h ([.enqueue (fileHeader 0), .enqueue [2, 0, 65, 0, 0], .sync, .sync,
    .command .loggingStart ⟨1, 1⟩ false, .commandStep 0, .commandStep 0, .sync, .sync, .sync] ++
    List.replicate 40 .sync ++ [.loggingAck ⟨1, 1⟩ 0, .ackStep 0, .ackStep 0, .sync]) _ rfl ?_
  decide

end MutelemetryStreamer

end Mutelemetry.Network
