import Mutelemetry.Lib.Progress
import Mutelemetry.Network.Accounting
import Mutelemetry.Network.Handshake

/-!
# The handshake can be completed

Lost messages, timeouts, late acknowledgements and the commands of other
clients hold the handshake up, but never for good: from every state of it, with
all that is in flight lost, one START, the definitions sent once more when their
time is over, and the acknowledgements of these bring the streamer to its end.
What could prevent it is a definition that no message can carry.
-/

namespace Mutelemetry.Network

open ByteString Ulog StreamerState

-- ---------------------------------------------------------------------------
-- Waiting
-- ---------------------------------------------------------------------------

def Waits (s : MutelemetryStreamer) : Prop :=
  s.sync ≠ .timeout ∧ (s.state = .ackWait ∨ s.sync = .loaded .ackWait ∨ ∃ st, s.sync = .sent st)

/-- `sync_timeout_` comes by 1000. -/
def MutelemetryStreamer.Timed (s : MutelemetryStreamer) : Prop :=
  s.syncTimeout.toNat % 50 = 0 ∧ s.syncTimeout.toNat < 1000

def Wire.Short : Wire → Prop
  | .loggingDataAcked _ _ _ d => d.length ≤ MutelemetryStreamer.fieldDataLen
  | _ => True

structure Sent (s : MutelemetryStreamer) : Prop where
  timed : Waits s → s.Timed
  short : ∀ w ∈ s.wire, w.Short
  exited : s.sync = .exited → s.running = true

section
variable {s s' : MutelemetryStreamer}

structure Aside (s s' : MutelemetryStreamer) : Prop where
  sync : s'.sync = s.sync
  syncTimeout : s'.syncTimeout = s.syncTimeout
  running : s'.running = s.running
  wire : ∃ ws, s'.wire = s.wire ++ ws ∧ ∀ w ∈ ws, w.Short

theorem aside_self (s : MutelemetryStreamer) : Aside s s :=
  ⟨rfl, rfl, rfl, [], by simp, by simp⟩

theorem MutelemetryStreamer.Replies.short (h : MutelemetryStreamer.Replies ws) :
    ∀ w ∈ ws, w.Short := by
  intro w hw
  obtain ⟨_, _, _, rfl⟩ := h w hw
  trivial

theorem aside_exchange (s : MutelemetryStreamer) (old new : StreamerState) :
    Aside s (s.exchange old new) := by
  obtain ⟨_, _, h⟩ := s.exchange_frame old new
  rw [h]
  exact { aside_self s with }

theorem aside_of_step (hs : s.step e = some s') (he : e ≠ .sync) : Aside s s' := by
  cases e with
  | sync => exact absurd rfl he
  | enqueue =>
    cases hs
    exact { aside_self s with }
  | discard => cases MutelemetryStreamer.discardLoop_step hs <;> exact { aside_self s with }
  | main =>
    cases MutelemetryStreamer.mainLoop_step hs with
    | send => exact { aside_self s with wire := ⟨[_], rfl, by simp [Wire.Short]⟩ }
    | notRunning | enter | load | loadLost | done | more | dequeue | skip =>
      exact { aside_self s with }
  | command command sa confirmation =>
    cases hs
    obtain ⟨-, he⟩ | ⟨-, he⟩ := s.protoCommandHandler_cases command sa confirmation
    · rw [he]
      exact aside_self s
    · rw [he]
      exact { aside_self s with }
  | commandStep i =>
    cases MutelemetryStreamer.commandStep_step hs with
    | compare _ _ hv => cases hv <;> exact { aside_self s with }
    | refuse _ _ hws => exact { aside_self s with wire := ⟨_, rfl, hws.short⟩ }
    | exchange _ _ _ hws =>
      exact { aside_exchange s _ _ with wire := ⟨_, by simp, hws.short⟩ }
  | loggingAck sa sequence =>
    cases hs
    obtain ⟨-, he⟩ | ⟨-, he⟩ := s.protoLoggingAckHandler_cases sa sequence
    · rw [he]
      exact { aside_self s with }
    · rw [he]
      exact aside_self s
  | ackStep i =>
    cases MutelemetryStreamer.ackStep_step hs with
    | agrees | differs => exact { aside_self s with }
    | exchange => exact { aside_exchange s _ _ with }

theorem StreamerState.Owned.ne_ackWait (h : Owned old new) : new ≠ .ackWait := by
  cases h <;> decide

theorem Aside.waits (h : Aside s s') (ht : Turns s e s') (he : e ≠ .sync) (hw : Waits s') :
    Waits s := by
  obtain ⟨hnot, hw⟩ := hw
  rw [h.sync] at hnot hw
  refine ⟨hnot, hw.imp_left fun hst => ?_⟩
  cases ht with
  | still heq => exact heq ▸ hst
  | sync | final => exact absurd rfl he
  | command _ _ ho | ack _ _ ho => exact absurd hst ho.ne_ackWait

theorem Sent.aside (h : Sent s) (ha : Aside s s') (hw : Waits s' → Waits s) : Sent s' := by
  obtain ⟨ws, hwire, hshort⟩ := ha.wire
  constructor
  · intro hwaits
    rw [MutelemetryStreamer.Timed, ha.syncTimeout]
    exact h.timed (hw hwaits)
  · intro w hmem
    rw [hwire] at hmem
    exact (List.mem_append.mp hmem).elim (h.short w) (hshort w)
  · rw [ha.sync, ha.running]
    exact h.exited

theorem MutelemetryStreamer.Timed.tick (h : s.Timed) (hne : s.syncTimeout + 50 ≠ 1000) :
    ({ s with syncTimeout := s.syncTimeout + 50, sync := pc } : MutelemetryStreamer).Timed := by
  obtain ⟨hwhole, hlt⟩ := h
  have hsum : (s.syncTimeout + 50).toNat = s.syncTimeout.toNat + 50 := by
    rw [UInt16.toNat_add]
    exact Nat.mod_eq_of_lt (by simp; omega)
  have hne' : (s.syncTimeout + 50).toNat ≠ 1000 := fun heq => hne (UInt16.toNat_inj.mp heq)
  rw [hsum] at hne'
  rw [Timed, hsum]
  omega

theorem Sent.syncStep (h : Sent s) (hp : Phase s) (hs : s.SyncStep s') : Sent s' := by
  have hsync := hp.sync
  -- a place that is not of the waiting is waited at only where the state says so
  have still {t : MutelemetryStreamer} (hwire : t.wire = s.wire)
      (htime : t.syncTimeout = s.syncTimeout) (hx : t.sync = .exited → t.running = true)
      (hw : Waits t → Waits s) : Sent t := by
    refine ⟨fun hwaits => ?_, hwire ▸ h.short, hx⟩
    rw [MutelemetryStreamer.Timed, htime]
    exact h.timed (hw hwaits)
  have place {t : MutelemetryStreamer} {pc : SyncPc} (hpc : s.sync = pc) (hpc' : pc ≠ .timeout)
      (hload : t.sync ≠ .loaded .ackWait) (hsent : ∀ st, t.sync ≠ .sent st)
      (hst : t.state = .ackWait → s.state = .ackWait) (hw : Waits t) : Waits s := by
    obtain ⟨-, hw | hw | ⟨st, hw⟩⟩ := hw
    · exact ⟨hpc ▸ hpc', .inl (hst hw)⟩
    · exact absurd hw hload
    · exact absurd hw (hsent st)
  cases hs with
  | asleep => exact h
  | collect hpc => exact still rfl rfl (by simp [hpc]) id
  | load hpc =>
    refine still rfl rfl (by simp) fun ⟨hnot, hw⟩ => ⟨by simp [hpc], .inl ?_⟩
    simpa using hw
  | send hpc hst hd hlen =>
    refine ⟨fun _ => ⟨rfl, Nat.zero_lt_succ _⟩, fun w hw => ?_, fun hx => by cases hx⟩
    obtain hw | hw := List.mem_append.mp hw
    · exact h.short w hw
    · rw [List.mem_singleton.mp hw]
      exact hlen
  | @await st hpc =>
    obtain ⟨_, _, he⟩ := s.exchange_frame st .ackWait
    rw [he]
    exact still rfl rfl (by simp) fun _ => ⟨by simp [hpc], .inr (.inr ⟨_, hpc⟩)⟩
  | receive hpc =>
    rw [hpc] at hsync
    rw [MutelemetryStreamer.exchange_eq (hsync.2.1.eq (by decide) (by decide) hsync.1)]
    exact still rfl rfl (by simp) fun hw => by simp [Waits] at hw
  | resend hpc =>
    obtain ⟨-, he⟩ | ⟨hne, he⟩ := s.exchange_cases .ackWait .resendDef
    · rw [he]
      exact still rfl rfl (by simp) fun hw => by simp [Waits] at hw
    · rw [he]
      exact still rfl rfl (by simp) fun hw => by simp [Waits, hne] at hw
  | @finalSet st hpc =>
    obtain ⟨-, he⟩ | ⟨-, he⟩ := s.setState_cases st .running
    · rw [he]
      exact still rfl rfl (by simp) fun hw => by simp [Waits] at hw
    · rw [he]
      exact still rfl rfl (by simp) (place hpc (by simp) (by simp) (by simp) id)
  | finalRun hpc =>
    exact still rfl rfl (fun _ => rfl) (place hpc (by simp) (by simp) (by simp) id)
  | tick hpc hpc' =>
    obtain ⟨rfl, hne⟩ | ⟨rfl, -⟩ := hpc'
    · refine ⟨fun _ => ?_, h.short, by simp⟩
      exact (h.timed ⟨by simp [hpc], .inr (.inl hpc)⟩).tick hne
    · exact ⟨fun hw => absurd rfl hw.1, h.short, by simp⟩
  | begin hpc | leave hpc | refuse hpc | next hpc | rest hpc | unexpected hpc | finalLoad hpc =>
    exact still rfl rfl (by simp) (place hpc (by simp) (by simp) (by simp) id)

theorem Sent.step (h : Sent s) (hp : Phase s) (hs : s.step e = some s') : Sent s' := by
  by_cases he : e = .sync
  · subst he
    exact h.syncStep hp (MutelemetryStreamer.syncLoop_step hs)
  · have ha := aside_of_step hs he
    exact h.aside ha (ha.waits (hp.turns hs) he)

theorem sent_new (rt : Bool) : Sent (.new rt) where
  timed := by simp [Waits, MutelemetryStreamer.new]
  short := by simp [MutelemetryStreamer.new]
  exited := by simp [MutelemetryStreamer.new]

theorem wire_of_step (hs : s.step e = some s') : ∃ ws, s'.wire = s.wire ++ ws := by
  by_cases he : e = .sync
  · subst he
    cases MutelemetryStreamer.syncLoop_step hs with
    | send => exact ⟨[_], rfl⟩
    | await | receive | resend | finalSet => exact ⟨[], by simp⟩
    | asleep | collect | begin | load | leave | refuse | next | rest | tick | unexpected
    | finalLoad | finalRun => exact ⟨[], by simp⟩
  · obtain ⟨ws, hws, -⟩ := (aside_of_step hs he).wire
    exact ⟨ws, hws⟩

theorem definitions_of_step (hs : s.step e = some s') (hcollected : s.sync ≠ .collect) :
    s'.definitions = s.definitions ∧ s'.sync ≠ .collect := by
  cases moves_of_step hs with
  | quiet _ _ hq => exact ⟨hq.definitions, hq.sync.not.mpr hcollected⟩
  | collect hpc | begin hpc => exact absurd hpc hcollected
  | enqueue | discard | dequeue | skip | send => exact ⟨rfl, hcollected⟩

-- ---------------------------------------------------------------------------
-- What is left to do
-- ---------------------------------------------------------------------------

/-- What is left before `sync_loop` is back at its loop with the next
definition, or at its end. -/
def SyncPc.rank (state : StreamerState) : SyncPc → Nat
  | .loaded .ackWait => 11
  | .loaded .init | .timeout => 10
  | .loop => match state with
    | .init => 9
    | .ackWait => 5
    | .ackRecv => 4
    | _ => 8
  | .loaded .ackRecv => 3
  | .loaded _ => 7
  | .sent _ => 6
  | .received => 2
  | .finalLoad => 3
  | .finalSet _ => 2
  | .finalRun => 1
  | .collect | .exited => 0

/-- An acknowledgement that is handled takes two steps, and may turn `sync_loop`
back. -/
def rank (s : MutelemetryStreamer) : Nat :=
  20 * (s.definitions.length - s.seq) + s.sync.rank s.state +
    15 * (s.acks.length + s.acks.countP (·.newState.isNone))

theorem rank_loop (st : StreamerState) : SyncPc.rank st .loop ≤ 9 ∧ 4 ≤ SyncPc.rank st .loop := by
  cases st <;> decide

theorem rank_state (pc : SyncPc) (st st' : StreamerState) : pc.rank st ≤ pc.rank st' + 5 := by
  cases pc with
  | loop =>
    have hst := rank_loop st
    have hst' := rank_loop st'
    omega
  | loaded st => cases st <;> exact Nat.le_add_right _ 5
  | collect | sent | timeout | received | finalLoad | finalSet | finalRun | exited =>
    exact Nat.le_add_right _ 5

theorem rank_lt (hdefs : s'.definitions = s.definitions) (hseq : s'.seq = s.seq)
    (hacks : s'.acks = s.acks) (h : s'.sync.rank s'.state < s.sync.rank s.state) :
    rank s' < rank s := by
  rw [rank, rank, hdefs, hseq, hacks]
  omega

theorem sendDefinition_isSome (hlt : s.seq < s.definitions.length) (st : StreamerState) :
    (s.sendDefinition st).isSome := by
  rw [MutelemetryStreamer.sendDefinition, List.getElem?_eq_getElem hlt]
  dsimp only
  split <;> rfl

/-- `sync_loop` can always take a step. -/
theorem Phase.syncLoop_isSome (hp : Phase s) (hexited : s.sync ≠ .exited) :
    s.syncLoop.isSome := by
  have hsync := hp.sync
  cases hpc : s.sync with
  | exited => exact absurd hpc hexited
  | collect =>
    simp only [MutelemetryStreamer.syncLoop, hpc]
    split
    · rfl
    · split <;> rfl
  | loop =>
    simp only [MutelemetryStreamer.syncLoop, hpc]
    split <;> rfl
  | loaded st =>
    rw [hpc] at hsync
    simp only [MutelemetryStreamer.syncLoop, hpc]
    cases st with
    | connected =>
      refine sendDefinition_isSome ?_ _
      obtain ⟨-, he⟩ | ⟨-, he⟩ :=
        s.assert_cases (s.targetSystem ≠ 0 && s.targetComponent ≠ 0) .target
      · rw [he]
        exact hsync.2.2
      · rw [he]
        exact hsync.2.2
    | sendDef | resendDef => exact sendDefinition_isSome hsync.2.2 _
    | init | ackRecv | ackWait | running | stopped | unknown => rfl
  | sent | timeout | received | finalLoad | finalSet | finalRun =>
    simp only [MutelemetryStreamer.syncLoop, hpc, Option.isSome_some]

def Stuck (s : MutelemetryStreamer) : Prop :=
  s.sync = .loop ∧ s.seq < s.definitions.length ∧ (s.state = .init ∨ s.state = .ackWait)

theorem Phase.rank_syncStep (hp : Phase s) (hs : s.SyncStep s') (hcollect : s.sync ≠ .collect)
    (hstuck : ¬ Stuck s)
    (hfit : ∀ d ∈ s.definitions, d.length ≤ MutelemetryStreamer.fieldDataLen) :
    rank s' < rank s := by
  have hsync := hp.sync
  cases hs with
  | asleep hpc | collect hpc | begin hpc => exact absurd hpc hcollect
  | load hpc hlt =>
    rw [hpc] at hsync
    refine rank_lt rfl rfl rfl ?_
    rw [hpc]
    cases hst : s.state with
    | init => exact absurd ⟨hpc, hlt, .inl hst⟩ hstuck
    | ackWait => exact absurd ⟨hpc, hlt, .inr hst⟩ hstuck
    | connected | sendDef | resendDef | ackRecv => exact Nat.lt_add_one _
    | running | stopped | unknown => exact absurd hsync.1 (by simp [hst, Handshake])
  | leave hpc =>
    refine rank_lt rfl rfl rfl ?_
    rw [hpc]
    exact (rank_loop _).2
  | @send st _ _ hpc hst =>
    refine rank_lt rfl rfl rfl ?_
    rw [hpc]
    cases st <;> first | exact Nat.lt_add_one 6 | exact hst.elim
  | refuse _ _ hd hlen =>
    exact absurd (hfit _ (List.mem_of_getElem? hd)) (Nat.not_le.mpr hlen)
  | await hpc =>
    rw [hpc] at hsync
    rw [MutelemetryStreamer.exchange_eq hsync.2.1]
    refine rank_lt rfl rfl rfl ?_
    rw [hpc]
    exact Nat.lt_add_one 5
  | receive hpc =>
    refine rank_lt (by simp) (by simp) (by simp) ?_
    rw [hpc]
    exact Nat.lt_add_one 2
  | next hpc =>
    rw [hpc] at hsync
    have hloop := (rank_loop s.state).1
    have hlt := hsync.2
    simp only [rank, hpc, SyncPc.rank] at hloop ⊢
    omega
  | rest hpc hst =>
    rw [hpc] at hsync
    refine rank_lt rfl rfl rfl ?_
    rw [hpc]
    obtain rfl | rfl := hst
    · exact hsync.1.elim
    · exact Nat.lt_succ_of_le (rank_loop _).1
  | tick hpc hpc' =>
    refine rank_lt rfl rfl rfl ?_
    rw [hpc]
    obtain ⟨rfl, -⟩ | ⟨rfl, -⟩ := hpc'
    · exact Nat.lt_of_le_of_lt (rank_loop _).1 (show 9 < 11 by decide)
    · exact Nat.lt_add_one 10
  | resend hpc =>
    refine rank_lt (by simp) (by simp) (by simp) ?_
    rw [hpc]
    exact Nat.lt_succ_of_le (rank_loop _).1
  | unexpected hpc hst =>
    rw [hpc] at hsync
    obtain rfl | rfl := hst
    · exact hsync.1.elim
    · exact hsync.1.elim
  | finalLoad hpc =>
    refine rank_lt rfl rfl rfl ?_
    rw [hpc]
    exact Nat.lt_add_one 2
  | finalSet hpc =>
    refine rank_lt (by simp) (by simp) (by simp) ?_
    rw [hpc]
    exact Nat.lt_add_one 1
  | finalRun hpc =>
    refine rank_lt rfl rfl rfl ?_
    rw [hpc]
    exact Nat.lt_add_one 0

theorem ackStep_isSome (hacks : s.acks = [call]) : (s.ackStep 0).isSome := by
  simp only [MutelemetryStreamer.ackStep, hacks, List.getElem?_cons_zero]
  split <;> rfl

theorem rank_ackStep (hacks : s.acks = [call]) (hs : s.AckStep 0 s') : rank s' < rank s := by
  cases hs with
  | agrees hcall hnew | differs hcall hnew =>
    obtain rfl : call = _ := Option.some.inj (by rw [← hcall, hacks]; rfl)
    simp [rank, hacks, hnew]
  | @exchange call' answer hcall hnew =>
    obtain rfl : call = call' := Option.some.inj (by rw [← hcall, hacks]; rfl)
    have hst := rank_state s.sync (s.exchange .ackWait answer).state s.state
    have hpc : (s.exchange .ackWait answer).sync = s.sync := (aside_exchange s _ _).sync
    simp only [rank, hacks, hpc, MutelemetryStreamer.exchange_seq,
      MutelemetryStreamer.exchange_definitions, List.eraseIdx_cons_zero, List.length_cons,
      List.length_nil, List.countP_nil]
    omega

end

namespace System

-- ---------------------------------------------------------------------------
-- The streamer and its client
-- ---------------------------------------------------------------------------

theorem step_cases {s s' : System} (hs : s.step e = some s') :
    (∃ e', s.streamer.step e' = some s'.streamer ∧ s'.client = s.client) ∨
    ∃ w ∈ s.streamer.wire, s' = { s with client := s.client.receive w } := by
  cases e with
  | streamer e =>
    obtain ⟨-, t, ht, rfl⟩ := step_streamer hs
    exact .inl ⟨e, ht, rfl⟩
  | deliver i =>
    obtain ⟨w, hw, rfl⟩ := Option.map_eq_some_iff.mp hs
    exact .inr ⟨w, List.mem_of_getElem? hw, rfl⟩
  | ack i =>
    rw [step] at hs
    split at hs
    · obtain ⟨j, -, rfl⟩ := Option.map_eq_some_iff.mp hs
      exact .inl ⟨.loggingAck s.client.address j, rfl, rfl⟩
    · cases hs

theorem acks_receive (c : MutelemetryClient) :
    (c.receive (.loggingDataAcked ts tc j d)).acks = c.acks ++ [j] := by
  rw [MutelemetryClient.receive]
  split <;> rfl

theorem receive_short {c : MutelemetryClient} (hw : w.Short)
    (h : ∀ d ∈ c.definitions, d.length ≤ MutelemetryStreamer.fieldDataLen) :
    ∀ d ∈ (c.receive w).definitions, d.length ≤ MutelemetryStreamer.fieldDataLen := by
  cases w with
  | loggingData | commandAck => exact h
  | loggingDataAcked ts tc j data =>
    rw [MutelemetryClient.receive]
    split
    · exact h
    · intro d hd
      obtain hd | hd := List.mem_append.mp hd
      · exact h d hd
      · exact List.mem_singleton.mp hd ▸ hw

/-- The definitions are collected, and what was sent of them. -/
structure Open (s : System) : Prop where
  synced : Synced s.streamer s.client
  sent : Sent s.streamer
  parsed : ∀ d ∈ s.client.definitions, d.length ≤ MutelemetryStreamer.fieldDataLen
  fits : s.Fits
  collected : s.streamer.sync ≠ .collect

theorem Open.definitions {s s' : System} (h : Open s) (hs : s.step e = some s') :
    s'.streamer.definitions = s.streamer.definitions ∧ s'.streamer.sync ≠ .collect := by
  obtain ⟨e', hs', -⟩ | ⟨w, -, rfl⟩ := step_cases hs
  · exact definitions_of_step hs' h.collected
  · exact ⟨rfl, h.collected⟩

theorem Open.step {s s' : System} (h : Open s) (hs : s.step e = some s') : Open s' := by
  obtain ⟨hdefs, hcollected⟩ := h.definitions hs
  have hfits : s'.Fits := by rw [Fits, hdefs]; exact h.fits
  refine ⟨synced_step (fun _ => h.synced) hs hfits, ?_, ?_, hfits, hcollected⟩
  · obtain ⟨e', hs', -⟩ | ⟨w, -, rfl⟩ := step_cases hs
    · exact h.sent.step h.synced.phase hs'
    · exact h.sent
  · obtain ⟨e', -, hc⟩ | ⟨w, hw, rfl⟩ := step_cases hs
    · exact hc ▸ h.parsed
    · exact receive_short (h.sent.short w hw) h.parsed

theorem Open.run {s s' : System} (h : Open s) (hs : Transition.run System.step s es = some s') :
    Open s' ∧ s'.streamer.definitions = s.streamer.definitions :=
  Transition.run_invariant
    (fun m : System => Open m ∧ m.streamer.definitions = s.streamer.definitions)
    (fun hm hstep => ⟨hm.1.step hstep, (hm.1.definitions hstep).1.trans hm.2⟩) hs ⟨h, rfl⟩

-- ---------------------------------------------------------------------------
-- What is in flight is lost
-- ---------------------------------------------------------------------------

/-- What this event delivers was not in flight in `s`. -/
def Afresh (s : System) : Event → Prop
  | .streamer _ => True
  | .deliver i => s.streamer.wire.length ≤ i
  | .ack i => s.client.acks.length ≤ i

structure Later (s s' : System) : Prop where
  wire : s.streamer.wire.length ≤ s'.streamer.wire.length
  acks : s.client.acks.length ≤ s'.client.acks.length

theorem Later.step {s s' : System} (h : Later s₀ s) (hs : s.step e = some s') : Later s₀ s' := by
  obtain ⟨e', hs', hc⟩ | ⟨w, -, rfl⟩ := step_cases hs
  · obtain ⟨ws, hws⟩ := wire_of_step hs'
    refine ⟨?_, hc ▸ h.acks⟩
    rw [hws, List.length_append]
    exact h.wire.trans (Nat.le_add_right _ _)
  · refine ⟨h.wire, h.acks.trans ?_⟩
    cases w with
    | loggingData | commandAck => exact Nat.le_refl _
    | loggingDataAcked ts tc j d =>
      rw [acks_receive, List.length_append]
      exact Nat.le_add_right _ _

/-- A run in which nothing arrives that was in flight in `s₀` brings the rest of
the handshake nearer to its end. -/
def Nearer (s₀ s : System) : Prop :=
  Transition.Can System.step (fun _ => Afresh s₀) (fun s' => rank s'.streamer < rank s.streamer) s

theorem Open.nearer_sync {s : System} (h : Open s) (hexited : s.streamer.sync ≠ .exited)
    (hstuck : ¬ Stuck s.streamer)
    (hfit : ∀ d ∈ s.streamer.definitions, d.length ≤ MutelemetryStreamer.fieldDataLen) :
    Nearer s₀ s := by
  obtain ⟨t, ht⟩ := Option.isSome_iff_exists.mp (h.synced.phase.syncLoop_isSome hexited)
  have hs : s.step (.streamer .sync) = some { s with streamer := t } := by
    simp [System.step, MutelemetryStreamer.step, ht]
  refine .cons (a := .streamer .sync) trivial hs (.now ?_)
  exact h.synced.phase.rank_syncStep (MutelemetryStreamer.syncLoop_step ht) h.collected hstuck hfit

theorem Open.nearer_ackStep {s : System} (h : Open s) (hacks : s.streamer.acks ≠ []) :
    Nearer s₀ s := by
  obtain ⟨call, hcall⟩ : ∃ call, s.streamer.acks = [call] :=
    List.length_eq_one_iff.mp
      (Nat.le_antisymm h.synced.turn.one (List.length_pos_iff.mpr hacks))
  obtain ⟨t, ht⟩ := Option.isSome_iff_exists.mp (ackStep_isSome hcall)
  have hs : s.step (.streamer (.ackStep 0)) = some { s with streamer := t } := by
    simp [System.step, MutelemetryStreamer.step, ht]
  refine .cons (a := .streamer (.ackStep 0)) trivial hs (.now ?_)
  exact rank_ackStep hcall (MutelemetryStreamer.ackStep_step ht)

theorem nearer_start {s : System} (hpc : s.streamer.sync = .loop) (hst : s.streamer.state = .init) :
    Nearer s₀ s := by
  let i := s.streamer.commands.length
  let es : List Event := [.streamer (.command .loggingStart s.client.address false),
    .streamer (.commandStep i), .streamer (.commandStep i)]
  obtain ⟨t, ht, hsync, hstate, hdefs, hseq, hacks⟩ :
      ∃ t, Transition.run System.step s es = some { s with streamer := t } ∧ t.sync = .loop ∧
        t.state = .connected ∧ t.definitions = s.streamer.definitions ∧
        t.seq = s.streamer.seq ∧ t.acks = s.streamer.acks := by
    simp [es, i, Transition.run, System.step, MutelemetryStreamer.step,
      MutelemetryStreamer.protoCommandHandler, MutelemetryStreamer.commandStep,
      MutelemetryStreamer.compareCommand, MutelemetryStreamer.exchange_eq, hst, hpc]
  refine ⟨es, _, .of_run ht (by simp [es, Afresh]), rank_lt hdefs hseq hacks ?_⟩
  rw [hsync, hstate, hpc, hst]
  exact Nat.lt_add_one 8

-- ---------------------------------------------------------------------------
-- The timeout
-- ---------------------------------------------------------------------------

section
variable {s : System} (hpc : s.streamer.sync = .loop) (hst : s.streamer.state = .ackWait)
  (hlt : s.streamer.seq < s.streamer.definitions.length)
include hpc hst hlt

theorem can_wait (h : Transition.Can System.step (fun _ => Afresh s₀) P
      { s with streamer := { s.streamer with
        syncTimeout := s.streamer.syncTimeout + 50
        sync := if s.streamer.syncTimeout + 50 = 1000 then .timeout else .loop } }) :
    Transition.Can System.step (fun _ => Afresh s₀) P s := by
  have hload : s.step (.streamer .sync) =
      some { s with streamer := { s.streamer with sync := .loaded .ackWait } } := by
    simp [System.step, MutelemetryStreamer.step, MutelemetryStreamer.syncLoop, hpc, hst, hlt]
  exact .cons (a := .streamer .sync) trivial hload (.cons (a := .streamer .sync) trivial rfl h)

/-- The waiting comes to its end, after at most a second. -/
theorem can_timeout (hk : s.streamer.syncTimeout.toNat + 50 * (k + 1) = 1000)
    (h : Transition.Can System.step (fun _ => Afresh s₀) P
      { s with streamer := { s.streamer with syncTimeout := 1000, sync := .timeout } }) :
    Transition.Can System.step (fun _ => Afresh s₀) P s := by
  induction k generalizing s with
  | zero =>
    have hsum : s.streamer.syncTimeout + 50 = 1000 := by
      rw [← UInt16.toNat_inj, UInt16.toNat_add]
      exact Nat.mod_eq_of_lt (by simp; omega) |>.trans hk
    refine can_wait hpc hst hlt ?_
    rwa [hsum, if_pos rfl]
  | succ k ih =>
    have hsum : (s.streamer.syncTimeout + 50).toNat = s.streamer.syncTimeout.toNat + 50 := by
      rw [UInt16.toNat_add]
      exact Nat.mod_eq_of_lt (by simp; omega)
    have hne : s.streamer.syncTimeout + 50 ≠ 1000 := by
      rw [ne_eq, ← UInt16.toNat_inj, hsum]
      simp
      omega
    refine can_wait hpc hst hlt ?_
    rw [if_neg hne]
    exact ih rfl hst hlt (by dsimp only; omega) h

end

/-- The definition is sent once more when its time is over, and its
acknowledgement handled. -/
theorem Open.nearer_ack {s : System} (h : Open s) (hlater : Later s₀ s)
    (hacks : s.streamer.acks = []) (hpc : s.streamer.sync = .loop)
    (hst : s.streamer.state = .ackWait) (hlt : s.streamer.seq < s.streamer.definitions.length)
    (hfit : ∀ d ∈ s.streamer.definitions, d.length ≤ MutelemetryStreamer.fieldDataLen) :
    Nearer s₀ s := by
  obtain ⟨hwhole, htime⟩ := h.sent.timed ⟨by simp [hpc], .inl hst⟩
  obtain ⟨k, hk⟩ : ∃ k, s.streamer.syncTimeout.toNat + 50 * (k + 1) = 1000 :=
    ⟨(1000 - s.streamer.syncTimeout.toNat) / 50 - 1, by omega⟩
  refine can_timeout hpc hst hlt hk ?_
  have hlen := hfit _ (List.getElem_mem hlt)
  let es : List Event := [.streamer .sync, .streamer .sync, .streamer .sync, .streamer .sync,
    .deliver s.streamer.wire.length, .ack s.client.acks.length, .streamer (.ackStep 0),
    .streamer (.ackStep 0)]
  obtain ⟨s', hs', hsync, hstate, hdefs, hseq, hacks'⟩ :
      ∃ s', Transition.run System.step { s with streamer := { s.streamer with
          syncTimeout := 1000, sync := .timeout } } es = some s' ∧ s'.streamer.sync = .loop ∧
        s'.streamer.state = .ackRecv ∧ s'.streamer.definitions = s.streamer.definitions ∧
        s'.streamer.seq = s.streamer.seq ∧ s'.streamer.acks = s.streamer.acks := by
    simp [es, Transition.run, System.step, MutelemetryStreamer.step, MutelemetryStreamer.syncLoop,
      MutelemetryStreamer.sendDefinition, MutelemetryStreamer.sendUlogAck, hacks, acks_receive,
      MutelemetryStreamer.protoLoggingAckHandler, MutelemetryStreamer.ackStep,
      MutelemetryStreamer.exchange_eq, hst, hlt, Nat.not_lt.mpr hlen]
  refine ⟨es, s', .of_run hs' fun e he _ => ?_, rank_lt hdefs hseq hacks' ?_⟩
  · simp only [es, List.mem_cons, List.not_mem_nil, or_false] at he
    obtain rfl | rfl | rfl | rfl | rfl | rfl | rfl | rfl := he
    · trivial
    · trivial
    · trivial
    · trivial
    · exact hlater.wire
    · exact hlater.acks
    · trivial
    · trivial
  · rw [hsync, hstate, hpc, hst]
    exact Nat.lt_add_one 4

/-- Unless it is at its end, the handshake can be brought nearer to it. -/
theorem Open.nearer {s : System} (h : Open s) (hlater : Later s₀ s)
    (hfit : ∀ d ∈ s.streamer.definitions, d.length ≤ MutelemetryStreamer.fieldDataLen) :
    s.streamer.running = true ∨ Nearer s₀ s := by
  by_cases hexited : s.streamer.sync = .exited
  · exact .inl (h.sent.exited hexited)
  by_cases hacks : s.streamer.acks = []
  · by_cases hstuck : Stuck s.streamer
    · obtain ⟨hpc, hlt, hst | hst⟩ := hstuck
      · exact .inr (nearer_start hpc hst)
      · exact .inr (h.nearer_ack hlater hacks hpc hst hlt hfit)
    · exact .inr (h.nearer_sync hexited hstuck hfit)
  · exact .inr (h.nearer_ackStep hacks)

theorem open_of_reachable {s : System} (h : Transition.Reachable System.step (new rt address) s)
    (hfits : s.Fits) (hcollected : s.streamer.sync ≠ .collect) : Open s := by
  have hsent := h.invariant
    (fun s => Phase s.streamer ∧ Sent s.streamer ∧
      ∀ d ∈ s.client.definitions, d.length ≤ MutelemetryStreamer.fieldDataLen)
    (fun {s e s'} ⟨hp, hsent, hparsed⟩ hs => by
      obtain ⟨e', hs', hc⟩ | ⟨w, hw, rfl⟩ := step_cases hs
      · exact ⟨hp.step hs', hsent.step hp hs', hc ▸ hparsed⟩
      · exact ⟨hp, hsent, receive_short (hsent.short w hw) hparsed⟩)
    ⟨phase_new rt, sent_new rt, by simp [new]⟩
  exact ⟨synced_of_reachable h hfits, hsent.2.1, hsent.2.2, hfits, hcollected⟩

theorem Open.parsed_all {s : System} (h : Open s) (hrun : s.streamer.running = true) :
    s.client.definitions = s.streamer.definitions := by
  have hx := h.synced.phase.running hrun
  have hseq := h.synced.turn.ended h.collected (by simp [hx, SyncPc.InLoop])
  exact h.synced.delivered.received.eq_of_length_le (hseq ▸ h.synced.delivered.lower)

/-- The first definition is sent and lost. -/
def troubled : List Event :=
  [.streamer (.enqueue (fileHeader 0)), .streamer (.enqueue [2, 0, 65, 0, 0]),
    .streamer .sync, .streamer .sync, .streamer (.command .loggingStart ⟨1, 1⟩ false),
    .streamer (.commandStep 0), .streamer (.commandStep 0)] ++
  List.replicate 6 (.streamer .sync)

end System

end Mutelemetry.Network
