import Mutelemetry.Network.Step

/-!
# The phases of the streamer

`SyncOk` says, for every place `sync_loop` may stand at, what the shared state
can be there. `sync_loop` owns every transition of the handshake but those out
of INIT and ACK_WAIT; the handlers own these, and the two between RUNNING and
STOPPED. A compare-exchange may come long after its load: `Owned` lists all
those a handler can still issue, and `SyncOk` is closed under them.
-/

namespace Mutelemetry.Network

open Ulog

namespace StreamerState

def Handshake : StreamerState → Prop
  | .init | .connected | .sendDef | .resendDef | .ackRecv | .ackWait => True
  | .running | .stopped | .unknown => False

def Live : StreamerState → Prop
  | .running | .stopped => True
  | _ => False

inductive Owned : StreamerState → StreamerState → Prop
  | start : Owned .init .connected
  | resume : Owned .stopped .running
  | halt : Owned .running .stopped
  | ack : Owned .ackWait .ackRecv
  | nack : Owned .ackWait .resendDef

inductive Looped : StreamerState → StreamerState → Prop
  | await : st.Sends → Looped st .ackWait
  | receive : Looped .ackRecv .sendDef
  | resend : Looped .ackWait .resendDef

def After (st state : StreamerState) : Prop := state = st ∨ Owned st state

/-- The states in which the definition loop ends. With no definitions it ends
at once. -/
def Ended (state : StreamerState) (defs : Nat) : Prop :=
  state = .sendDef ∨ defs = 0 ∧ (state = .init ∨ state = .connected)

theorem Owned.ne (h : Owned old new) : old ≠ new := by cases h <;> decide

theorem Owned.ne_init (h : Owned old new) : new ≠ .init := by cases h <;> decide

theorem Owned.after (h : Owned old new) (ha : After st old) (hst : st.Handshake) :
    After st new := by
  rcases ha with rfl | ho
  · exact .inr h
  · cases ho <;> cases h <;> trivial

theorem Owned.handshake (h : Owned old new) (ho : old.Handshake) : new.Handshake := by
  cases h <;> trivial

theorem Owned.live (h : Owned old new) (ho : old.Live) : new.Live := by
  cases h <;> trivial

theorem After.eq (h : After st state) (hi : st ≠ .init) (ha : st ≠ .ackWait) (hst : st.Handshake) :
    state = st := by
  rcases h with rfl | h
  · rfl
  · cases h <;> first | exact hst.elim | contradiction

theorem After.of_init (h : After .init state) : state = .init ∨ state = .connected := by
  rcases h with rfl | h
  · exact .inl rfl
  · cases h
    exact .inr rfl

theorem After.handshake (h : After st state) (hst : st.Handshake) : state.Handshake := by
  rcases h with rfl | h
  · exact hst
  · exact h.handshake hst

theorem Looped.handshake (h : Looped old new) :
    (old.Handshake ∧ old ≠ .init) ∧ new.Handshake ∧ new ≠ .init := by
  cases h with
  | await hst =>
    cases old <;> first | exact hst.elim | exact ⟨⟨trivial, nofun⟩, trivial, nofun⟩
  | receive | resend => exact ⟨⟨trivial, nofun⟩, trivial, nofun⟩

theorem Live.not_handshake (h : Live state) : ¬ state.Handshake := by
  intro hh
  cases state <;> first | exact h | exact hh

/-- The final exchange takes effect, but for a START that comes in between when
there are no definitions. -/
theorem Ended.final (hst : Ended st defs) (h : After st state) :
    state = st ∨ defs = 0 ∧ state = .connected := by
  rcases h with rfl | h
  · exact .inl rfl
  · rcases hst with rfl | ⟨hd, rfl | rfl⟩ <;> cases h
    exact .inr ⟨hd, rfl⟩

end StreamerState

open StreamerState

def SyncPc.InLoop : SyncPc → Prop
  | .loop | .loaded _ | .sent _ | .timeout | .received => True
  | .collect | .finalLoad | .finalSet _ | .finalRun | .exited => False

-- ---------------------------------------------------------------------------
-- The invariant
-- ---------------------------------------------------------------------------

/-- What the shared state can be where `sync_loop` stands, with `seq` of `defs`
definitions acknowledged. -/
def SyncOk (pc : SyncPc) (state : StreamerState) (seq defs : Nat) : Prop :=
  match pc with
  | .collect => After .init state ∧ seq = 0
  | .loop => state.Handshake ∧ seq ≤ defs ∧ (seq = defs → Ended state defs)
  | .loaded st => st.Handshake ∧ After st state ∧ seq < defs
  | .sent st => st.Sends ∧ state = st ∧ seq < defs
  | .timeout => After .ackWait state ∧ seq < defs
  | .received => state = .sendDef ∧ seq < defs
  | .finalLoad => Ended state defs
  | .finalSet st => Ended st defs ∧ After st state
  | .finalRun | .exited => state.Live ∨ defs = 0 ∧ state = .connected

/-- A handler's exchange is one of those it owns, whenever it comes. -/
structure Phase (s : MutelemetryStreamer) : Prop where
  sync : SyncOk s.sync s.state s.seq s.definitions.length
  commands : ∀ call ∈ s.commands, ∀ new, call.newState = some new →
    new = .unknown ∨ Owned call.state new ∧ call.state ≠ .ackWait
  acks : ∀ call ∈ s.acks, ∀ new, call.newState = some new → Owned .ackWait new
  running : s.running = true → s.sync = .exited
  main : s.main ≠ .idle → s.running = true
  definitionState : .definitionState ∉ s.failed
  mainState : s.running = false ∨ s.definitions ≠ [] → .mainState ∉ s.failed

theorem SyncOk.owned (h : SyncOk pc old seq defs) (ho : Owned old new) :
    SyncOk pc new seq defs := by
  cases pc with
  | collect => exact ⟨ho.after h.1 trivial, h.2⟩
  | loop =>
    refine ⟨ho.handshake h.1, h.2.1, fun he => ?_⟩
    rcases h.2.2 he with rfl | ⟨hd, rfl | rfl⟩ <;> cases ho
    exact .inr ⟨hd, .inr rfl⟩
  | loaded st => exact ⟨h.1, ho.after h.2.1 h.1, h.2.2⟩
  | sent st =>
    obtain ⟨hs, rfl, -⟩ := h
    cases ho <;> exact hs.elim
  | timeout => exact ⟨ho.after h.1 trivial, h.2⟩
  | received =>
    obtain ⟨rfl, -⟩ := h
    cases ho
  | finalLoad =>
    rcases h with rfl | ⟨hd, rfl | rfl⟩ <;> cases ho
    exact .inr ⟨hd, .inr rfl⟩
  | finalSet st =>
    obtain ⟨hst, ha⟩ := h
    refine ⟨hst, ho.after ha ?_⟩
    rcases hst with rfl | ⟨-, rfl | rfl⟩ <;> trivial
  | finalRun | exited =>
    rcases h with h | ⟨-, rfl⟩
    · exact .inl (ho.live h)
    · cases ho

-- ---------------------------------------------------------------------------
-- Steps
-- ---------------------------------------------------------------------------

theorem Phase.notRunning (h : Phase s) (hx : s.sync ≠ .exited) : s.running = false := by
  cases hr : s.running
  · rfl
  · exact (hx (h.running hr)).elim

theorem Phase.move (h : Phase s) (hx : s.sync ≠ .exited)
    (hs : SyncOk s'.sync s'.state s'.seq s'.definitions.length)
    (hf : ∀ a ∈ s'.failed, a ∈ s.failed ∨ a = .exchanged ∨ a = .target ∨ a = .definitionSent)
    (hr : s'.running = true → s'.sync = .exited)
    (hc : s'.commands = s.commands) (ha : s'.acks = s.acks) (hm : s'.main = s.main) :
    Phase s' where
  sync := hs
  commands := hc ▸ h.commands
  acks := ha ▸ h.acks
  running := hr
  main := by
    intro hne
    have := h.main (hm ▸ hne)
    simp [h.notRunning hx] at this
  definitionState := fun hd => by
    rcases hf _ hd with hd | hd | hd | hd
    · exact h.definitionState hd
    all_goals cases hd
  mainState := fun _ hd => by
    rcases hf _ hd with hd | hd | hd | hd
    · exact h.mainState (.inl (h.notRunning hx)) hd
    all_goals cases hd

theorem SyncOk.handshake (h : SyncOk pc state seq defs) (hpc : pc.InLoop) : state.Handshake := by
  cases pc with
  | loop => exact h.1
  | loaded st => exact h.2.1.handshake h.1
  | sent st =>
    obtain ⟨hst, rfl, -⟩ := h
    cases state <;> trivial
  | timeout => exact h.1.handshake trivial
  | received =>
    obtain ⟨rfl, -⟩ := h
    trivial
  | collect | finalLoad | finalSet | finalRun | exited => exact hpc.elim

theorem Phase.syncStep (h : Phase s) (hs : s.SyncStep s') : Phase s' := by
  have hsync := h.sync
  have still (hx : s.sync ≠ .exited) {pc : SyncPc} (hr : s.running = true) : pc = .exited := by
    simp [h.notRunning hx] at hr
  cases hs with
  | asleep => exact h
  | collect hpc =>
    rw [hpc] at hsync
    exact h.move (by simp [hpc]) (by rw [hpc]; exact hsync) (fun _ => .inl) h.running rfl rfl rfl
  | begin hpc =>
    rw [hpc] at hsync
    obtain ⟨ha, hseq⟩ := hsync
    refine h.move (by simp [hpc]) ⟨ha.handshake trivial, by simp [hseq], fun he => ?_⟩
      (fun _ => .inl) (still (by simp [hpc])) rfl rfl rfl
    exact .inr ⟨by simpa [hseq] using he.symm, ha.of_init⟩
  | load hpc hlt =>
    rw [hpc] at hsync
    exact h.move (by simp [hpc]) ⟨hsync.1, .inl rfl, hlt⟩
      (fun _ => .inl) (still (by simp [hpc])) rfl rfl rfl
  | leave hpc hle =>
    rw [hpc] at hsync
    exact h.move (by simp [hpc]) (hsync.2.2 (Nat.le_antisymm hsync.2.1 hle))
      (fun _ => .inl) (still (by simp [hpc])) rfl rfl rfl
  | send hpc hst _ _ hlost =>
    rw [hpc] at hsync
    obtain ⟨hh, ha, hlt⟩ := hsync
    refine h.move (by simp [hpc]) ⟨hst, ha.eq ?_ ?_ hh, hlt⟩ ?_
      (still (by simp [hpc])) rfl rfl rfl
    · rintro rfl; exact hst
    · rintro rfl; exact hst
    · intro a ha
      exact (List.mem_append.mp ha).imp id fun ha => .inr (.inl (hlost a ha))
  | refuse hpc _ _ _ hlost =>
    rw [hpc] at hsync
    obtain ⟨hh, ha, hlt⟩ := hsync
    refine h.move (by simp [hpc]) ⟨ha.handshake hh, hlt.le, fun he => absurd he hlt.ne⟩ ?_
      (still (by simp [hpc])) rfl rfl rfl
    intro a ha
    exact (List.mem_append.mp ha).imp id fun ha => .inr (hlost a ha)
  | await hpc =>
    rw [hpc] at hsync
    obtain ⟨-, hst, hlt⟩ := hsync
    rw [MutelemetryStreamer.exchange_eq hst]
    exact h.move (by simp [hpc]) ⟨trivial, hlt.le, fun he => absurd he hlt.ne⟩
      (fun _ => .inl) (still (by simp [hpc])) rfl rfl rfl
  | receive hpc =>
    rw [hpc] at hsync
    obtain ⟨hh, ha, hlt⟩ := hsync
    rw [MutelemetryStreamer.exchange_eq (ha.eq (by decide) (by decide) hh)]
    exact h.move (by simp [hpc]) ⟨rfl, hlt⟩ (fun _ => .inl) (still (by simp [hpc])) rfl rfl rfl
  | next hpc =>
    rw [hpc] at hsync
    obtain ⟨hst, hlt⟩ := hsync
    exact h.move (by simp [hpc]) ⟨by simp [hst, Handshake], hlt, fun _ => .inl hst⟩
      (fun _ => .inl) (still (by simp [hpc])) rfl rfl rfl
  | rest hpc =>
    rw [hpc] at hsync
    obtain ⟨hh, ha, hlt⟩ := hsync
    exact h.move (by simp [hpc]) ⟨ha.handshake hh, hlt.le, fun he => absurd he hlt.ne⟩
      (fun _ => .inl) (still (by simp [hpc])) rfl rfl rfl
  | tick hpc hpc' =>
    rw [hpc] at hsync
    obtain ⟨hh, ha, hlt⟩ := hsync
    refine h.move (by simp [hpc]) ?_ (fun _ => .inl) (still (by simp [hpc])) rfl rfl rfl
    rcases hpc' with ⟨rfl, -⟩ | ⟨rfl, -⟩
    · exact ⟨ha.handshake hh, hlt.le, fun he => absurd he hlt.ne⟩
    · exact ⟨ha, hlt⟩
  | resend hpc =>
    rw [hpc] at hsync
    obtain ⟨ha, hlt⟩ := hsync
    rcases s.exchange_cases .ackWait .resendDef with ⟨-, he⟩ | ⟨-, he⟩ <;> rw [he]
    · exact h.move (by simp [hpc]) ⟨trivial, hlt.le, fun he => absurd he hlt.ne⟩
        (fun _ => .inl) (still (by simp [hpc])) rfl rfl rfl
    · refine h.move (by simp [hpc]) ⟨ha.handshake trivial, hlt.le, fun he => absurd he hlt.ne⟩ ?_
        (still (by simp [hpc])) rfl rfl rfl
      intro a ha
      exact (List.mem_append.mp ha).imp id fun ha => .inl (List.mem_singleton.mp ha)
  | unexpected hpc hst =>
    rw [hpc] at hsync
    rcases hst with rfl | rfl <;> exact hsync.1.elim
  | finalLoad hpc =>
    rw [hpc] at hsync
    exact h.move (by simp [hpc]) ⟨hsync, .inl rfl⟩
      (fun _ => .inl) (still (by simp [hpc])) rfl rfl rfl
  | finalSet hpc =>
    rw [hpc] at hsync
    rcases s.setState_cases _ .running with ⟨-, he⟩ | ⟨hne, he⟩ <;> rw [he]
    · exact h.move (by simp [hpc]) (.inl trivial) (fun _ => .inl) (still (by simp [hpc])) rfl rfl rfl
    · exact h.move (by simp [hpc]) (.inr ((hsync.1.final hsync.2).resolve_left hne))
        (fun _ => .inl) (still (by simp [hpc])) rfl rfl rfl
  | finalRun hpc =>
    rw [hpc] at hsync
    exact h.move (by simp [hpc]) hsync (fun _ => .inl) (fun _ => rfl) rfl rfl rfl

theorem Phase.mainStep (h : Phase s) (hs : s.MainStep s') : Phase s' := by
  cases hs with
  | notRunning => exact h
  | enter _ hr => exact { h with main := fun _ => hr }
  | load hm => exact { h with main := fun _ => h.main (by simp [hm]) }
  | loadLost hm hrun hstop =>
    have hr := h.main (by simp [hm])
    refine { h with main := fun _ => hr, definitionState := ?_, mainState := ?_ }
    · simpa using h.definitionState
    · -- with definitions the state is RUNNING or STOPPED here
      rintro (hf | hd)
      · simp [hr] at hf
      · have hsync := h.sync
        rw [h.running hr] at hsync
        rcases hsync with hl | ⟨hz, -⟩
        · cases hst : s.state <;> simp_all [Live]
        · exact absurd (List.length_eq_zero_iff.mp hz) hd
  | done => exact { h with main := fun hm => absurd rfl hm }
  | more hm | dequeue hm | skip hm | send hm =>
    exact { h with main := fun _ => h.main (by simp [hm]) }

theorem Phase.discardStep (h : Phase s) (hs : s.DiscardStep s') : Phase s' := by
  cases hs <;> exact { h with }

theorem Phase.exchange (h : Phase s) (ho : Owned old new) : Phase (s.exchange old new) := by
  rcases s.exchange_cases old new with ⟨hst, he⟩ | ⟨-, he⟩ <;> rw [he]
  · exact { h with sync := (hst ▸ h.sync).owned ho }
  · exact { h with
      definitionState := by simpa using h.definitionState
      mainState := by simpa using h.mainState }

theorem Phase.commandStep (h : Phase s) (hs : s.CommandStep i s') : Phase s' := by
  cases hs with
  | compare hcall _ hv =>
    have hset {c : CommandCall} {answer}
        (ha : answer = .unknown ∨ Owned c.state answer ∧ c.state ≠ .ackWait) :
        ∀ call ∈ s.commands.set i { c with newState := some answer }, ∀ new,
          call.newState = some new →
            new = .unknown ∨ Owned call.state new ∧ call.state ≠ .ackWait := by
      intro call hc new hn
      rcases List.mem_or_eq_of_mem_set hc with hc | rfl
      · exact h.commands _ hc _ hn
      · cases hn
        exact ha
    cases hv with
    | connect _ hst => exact { h with commands := hset (.inr (hst ▸ ⟨.start, by decide⟩)) }
    | resume _ hst => exact { h with commands := hset (.inr (hst ▸ ⟨.resume, by decide⟩)) }
    | halt _ hst => exact { h with commands := hset (.inr (hst ▸ ⟨.halt, by decide⟩)) }
    | refuse => exact { h with commands := hset (.inl rfl) }
  | refuse =>
    exact { h with commands := fun call hc => h.commands call (List.mem_of_mem_eraseIdx hc) }
  | exchange hcall hnew hu =>
    have ho := (h.commands _ (List.mem_of_getElem? hcall) _ hnew).resolve_left hu
    exact { h.exchange ho.1 with
      commands := fun call hc => h.commands call (List.mem_of_mem_eraseIdx hc) }

theorem Phase.ackStep (h : Phase s) (hs : s.AckStep i s') : Phase s' := by
  cases hs with
  | agrees hcall =>
    refine { h with acks := fun call hc new hn => ?_ }
    rcases List.mem_or_eq_of_mem_set hc with hc | rfl
    · exact h.acks _ hc _ hn
    · cases hn
      exact .ack
  | differs hcall =>
    refine { h with acks := fun call hc new hn => ?_ }
    rcases List.mem_or_eq_of_mem_set hc with hc | rfl
    · exact h.acks _ hc _ hn
    · cases hn
      exact .nack
  | exchange hcall hnew =>
    have ho := h.acks _ (List.mem_of_getElem? hcall) _ hnew
    exact { h.exchange ho with
      acks := fun call hc => h.acks call (List.mem_of_mem_eraseIdx hc) }

theorem Phase.step (h : Phase s) (hs : s.step e = some s') : Phase s' := by
  cases e with
  | enqueue dp =>
    cases hs
    exact { h with }
  | sync => exact h.syncStep (MutelemetryStreamer.syncLoop_step hs)
  | discard => exact h.discardStep (MutelemetryStreamer.discardLoop_step hs)
  | main => exact h.mainStep (MutelemetryStreamer.mainLoop_step hs)
  | command command sa confirmation =>
    cases hs
    rcases s.protoCommandHandler_cases command sa confirmation with ⟨-, he⟩ | ⟨-, he⟩ <;> rw [he]
    · exact h
    · refine { h with commands := fun call hc new hn => ?_ }
      rcases List.mem_append.mp hc with hc | hc
      · exact h.commands _ hc _ hn
      · rw [List.mem_singleton.mp hc] at hn
        cases hn
  | commandStep i => exact h.commandStep (MutelemetryStreamer.commandStep_step hs)
  | loggingAck sa sequence =>
    cases hs
    rcases s.protoLoggingAckHandler_cases sa sequence with ⟨-, he⟩ | ⟨-, he⟩ <;> rw [he]
    · refine { h with acks := fun call hc new hn => ?_ }
      rcases List.mem_append.mp hc with hc | hc
      · exact h.acks _ hc _ hn
      · rw [List.mem_singleton.mp hc] at hn
        cases hn
    · exact h
  | ackStep i => exact h.ackStep (MutelemetryStreamer.ackStep_step hs)

/-- What a step does to the shared state: the exchange that changed it, and whose
exchange that was. -/
inductive Turns (s : MutelemetryStreamer) : Event → MutelemetryStreamer → Prop
  | still : s'.state = s.state → Turns s e s'
  | sync : s.sync ≠ .exited → Looped s.state s'.state → Turns s .sync s'
  | final : s.sync = .finalSet s.state → s'.state = .running → Turns s .sync s'
  | command : s.commands[i]? = some call → call.newState = some s'.state →
    Owned s.state s'.state → s.state ≠ .ackWait → Turns s (.commandStep i) s'
  | ack : s.acks[i]? = some call → call.newState = some s'.state → Owned s.state s'.state →
    s.state = .ackWait → Turns s (.ackStep i) s'

theorem Phase.turns (h : Phase s) (hs : s.step e = some s') : Turns s e s' := by
  cases e with
  | enqueue dp =>
    cases hs
    exact .still rfl
  | sync =>
    have hsync := h.sync
    cases MutelemetryStreamer.syncLoop_step hs with
    | await hpc =>
      rw [hpc] at hsync
      obtain ⟨hst, heq, -⟩ := hsync
      rw [MutelemetryStreamer.exchange_eq heq]
      exact .sync (by simp [hpc]) (.await (heq ▸ hst))
    | receive hpc =>
      rw [hpc] at hsync
      have heq := hsync.2.1.eq (by decide) (by decide) hsync.1
      rw [MutelemetryStreamer.exchange_eq heq]
      exact .sync (by simp [hpc]) (heq ▸ .receive)
    | resend hpc =>
      obtain ⟨heq, he⟩ | ⟨-, he⟩ := s.exchange_cases .ackWait .resendDef
      · rw [he]
        exact .sync (by simp [hpc]) (heq ▸ .resend)
      · rw [he]
        exact .still rfl
    | @finalSet st hpc =>
      obtain ⟨heq, he⟩ | ⟨-, he⟩ := s.setState_cases st .running
      · rw [he]
        exact .final (heq ▸ hpc) rfl
      · rw [he]
        exact .still rfl
    | asleep | collect | begin | load | leave | send | refuse | next | rest | tick | unexpected
    | finalLoad | finalRun => exact .still rfl
  | discard => cases MutelemetryStreamer.discardLoop_step hs <;> exact .still rfl
  | main => cases MutelemetryStreamer.mainLoop_step hs <;> exact .still rfl
  | command command sa confirmation =>
    cases hs
    obtain ⟨-, he⟩ | ⟨-, he⟩ := s.protoCommandHandler_cases command sa confirmation
    · exact .still (by rw [he])
    · exact .still (by rw [he])
  | commandStep i =>
    cases MutelemetryStreamer.commandStep_step hs with
    | compare _ _ hv => cases hv <;> exact .still rfl
    | refuse => exact .still rfl
    | @exchange call answer _ hcall hnew hu =>
      obtain ⟨ho, hw⟩ := (h.commands _ (List.mem_of_getElem? hcall) _ hnew).resolve_left hu
      obtain ⟨heq, he⟩ | ⟨-, he⟩ := s.exchange_cases call.state answer
      · rw [he]
        exact .command hcall hnew (heq ▸ ho) (heq ▸ hw)
      · rw [he]
        exact .still rfl
  | loggingAck sa sequence =>
    cases hs
    obtain ⟨-, he⟩ | ⟨-, he⟩ := s.protoLoggingAckHandler_cases sa sequence
    · exact .still (by rw [he])
    · exact .still (by rw [he])
  | ackStep i =>
    cases MutelemetryStreamer.ackStep_step hs with
    | agrees | differs => exact .still rfl
    | @exchange call answer hcall hnew =>
      have ho := h.acks _ (List.mem_of_getElem? hcall) _ hnew
      obtain ⟨heq, he⟩ | ⟨-, he⟩ := s.exchange_cases .ackWait answer
      · rw [he]
        exact .ack hcall hnew (heq ▸ ho) heq
      · rw [he]
        exact .still rfl

/-- Behind `sync_loop` only the handlers change the state. -/
theorem Phase.exited (h : Phase s) (hx : s.sync = .exited) (hs : s.step e = some s') :
    s'.state = s.state ∨ Owned s.state s'.state := by
  cases h.turns hs with
  | still heq => exact .inl heq
  | sync hne => exact absurd hx hne
  | final hpc =>
    rw [hx] at hpc
    cases hpc
  | command _ _ ho | ack _ _ ho => exact .inr ho

theorem phase_new (rt : Bool) : Phase (MutelemetryStreamer.new rt) where
  sync := ⟨.inl rfl, rfl⟩
  commands := by simp [MutelemetryStreamer.new]
  acks := by simp [MutelemetryStreamer.new]
  running := by simp [MutelemetryStreamer.new]
  main := by simp [MutelemetryStreamer.new]
  definitionState := by simp [MutelemetryStreamer.new]
  mainState := by simp [MutelemetryStreamer.new]

theorem phase_of_reachable (h : Transition.Reachable MutelemetryStreamer.step (.new rt) s) :
    Phase s :=
  h.invariant Phase Phase.step (phase_new rt)

/-- Whatever the order of the steps, the commands and the acknowledgements:
the definition loop sees the handshake states only, its end makes the streamer
RUNNING, and `main_loop` finds it RUNNING or STOPPED. Without definitions the
last two fail, when a START comes between the last load and the last exchange. -/
theorem streamer_phases (h : Transition.Reachable MutelemetryStreamer.step (.new rt) s)
    (hdefs : s.sync ≠ .collect → s.definitions ≠ []) :
    (s.sync.InLoop → s.state.Handshake) ∧
    (∀ st, s.sync = .loaded st → st.Handshake) ∧
    .definitionState ∉ s.failed ∧
    (∀ st, s.sync = .finalSet st →
      s.setState st .running = ({ s with state := .running }, true)) ∧
    (s.running = true → s.state.Live) ∧
    (s.main = .entered → s.state.Live) ∧
    .mainState ∉ s.failed := by
  have hp := phase_of_reachable h
  have hsync := hp.sync
  have live (hr : s.running = true) : s.state.Live := by
    have hx := hp.running hr
    rw [hx] at hsync
    refine hsync.resolve_right fun ⟨hd, _⟩ => ?_
    exact hdefs (by simp [hx]) (List.length_eq_zero_iff.mp hd)
  refine ⟨hsync.handshake, ?_, hp.definitionState, ?_, live, ?_, ?_⟩
  · intro st hpc
    rw [hpc] at hsync
    exact hsync.1
  · intro st hpc
    rw [hpc] at hsync
    have hst : s.state = st := (hsync.1.final hsync.2).resolve_right fun ⟨hd, _⟩ =>
      hdefs (by simp [hpc]) (List.length_eq_zero_iff.mp hd)
    simp [MutelemetryStreamer.setState, hst]
  · exact fun hm => live (hp.main (by simp [hm]))
  · by_cases hpc : s.sync = .collect
    · exact hp.mainState (.inl (hp.notRunning (by simp [hpc])))
    · exact hp.mainState (.inr (hdefs hpc))

def oneDefinition : List Event :=
  [.enqueue (fileHeader 0), .enqueue [2, 0, 65, 0, 0], .sync, .sync,
    .command .loggingStart ⟨1, 1⟩ false, .commandStep 0, .commandStep 0,
    .sync, .sync, .sync, .loggingAck ⟨1, 1⟩ 0, .ackStep 0, .ackStep 0,
    .sync, .sync, .sync, .sync, .sync]

theorem streamer_phases_oneDefinition : ∃ s,
    Transition.run MutelemetryStreamer.step (.new false) oneDefinition = some s ∧
    s.sync = .finalSet .sendDef ∧
    s.setState .sendDef .running = ({ s with state := .running }, true) := by
  refine ⟨_, rfl, rfl, ?_⟩
  exact (streamer_phases ⟨oneDefinition, rfl⟩ (fun _ => List.cons_ne_nil _ _)).2.2.2.1 _ rfl

end Mutelemetry.Network
