import Mutelemetry.Network.Phase

/-!
# The definition handshake

The streamer joined to the reference client by a network that keeps every
message ever sent and may deliver it any number of times, in any order, or
never. The client's LOGGING_ACKs are the only ones, and they are handled one
at a time. `Delivered` is the invariant of the messages in flight, `Turn` that
of the streamer's side of an exchange.
-/

namespace Mutelemetry.Network

open ByteString Ulog StreamerState

-- ---------------------------------------------------------------------------
-- The client and the network
-- ---------------------------------------------------------------------------

/-- What the reference client keeps: `sequence_keeper`, the buffers it handed
to its parser from LOGGING_DATA_ACKED and from LOGGING_DATA, and the sequence
numbers it acknowledged. -/
structure MutelemetryClient where
  address : SparseAddress
  sequenceKeeper : List UInt16
  definitions : List Bytes
  data : List Bytes
  acks : List UInt16
  deriving DecidableEq, Repr

def MutelemetryClient.receive (c : MutelemetryClient) : Wire → MutelemetryClient
  | .loggingData _ _ data => { c with data := c.data ++ [data] }
  | .loggingDataAcked _ _ sequence data =>
    if sequence ∈ c.sequenceKeeper then { c with acks := c.acks ++ [sequence] }
    else { c with
      sequenceKeeper := sequence :: c.sequenceKeeper
      definitions := c.definitions ++ [data]
      acks := c.acks ++ [sequence] }
  | .commandAck .. => c

structure System where
  streamer : MutelemetryStreamer
  client : MutelemetryClient
  deriving DecidableEq, Repr

namespace System

def new (rt : Bool) (address : SparseAddress) : System where
  streamer := .new rt
  client := ⟨address, [], [], [], []⟩

inductive Event
  | streamer (e : Network.Event)
  /-- A message the streamer sent reaches the client. -/
  | deliver (i : Nat)
  /-- A LOGGING_ACK the client sent reaches the streamer. -/
  | ack (i : Nat)
  deriving DecidableEq, Repr

def step (s : System) : Event → Option System
  | .streamer (.loggingAck ..) => none
  | .streamer e => (s.streamer.step e).map fun t => { s with streamer := t }
  | .deliver i => s.streamer.wire[i]?.map fun w => { s with client := s.client.receive w }
  | .ack i =>
    if s.streamer.acks.isEmpty then
      s.client.acks[i]?.map fun sequence =>
        { s with streamer := s.streamer.protoLoggingAckHandler s.client.address sequence }
    else none

end System

-- ---------------------------------------------------------------------------
-- The invariant
-- ---------------------------------------------------------------------------

/-- Every message in flight and all the client knows come from the first
`seq + 1` definitions, and the client has at least the first `seq`. -/
structure Delivered (wire : List Wire) (definitions : List Bytes) (seq : Nat)
    (c : MutelemetryClient) : Prop where
  sent : ∀ ts tc j d, .loggingDataAcked ts tc j d ∈ wire →
    ∃ k, k ≤ seq ∧ j = UInt16.ofNat k ∧ definitions[k]? = some d
  received : c.definitions <+: definitions
  kept : ∀ j, j ∈ c.sequenceKeeper ↔ ∃ k, k < c.definitions.length ∧ j = UInt16.ofNat k
  lower : seq ≤ c.definitions.length
  upper : c.definitions.length ≤ seq + 1
  acked : ∀ j ∈ c.acks, ∃ k, k < c.definitions.length ∧ j = UInt16.ofNat k

def SyncPc.AckTurn : SyncPc → Prop
  | .loop | .loaded .ackWait | .loaded .resendDef | .sent .resendDef | .timeout => True
  | _ => False

structure Turn (s : MutelemetryStreamer) (n : Nat) : Prop where
  one : s.acks.length ≤ 1
  place : s.acks ≠ [] → (s.state = .ackWait ∨ s.state = .resendDef) ∧ s.sync.AckTurn
  calls : ∀ call ∈ s.acks, (∃ k, k < n ∧ call.sequence = UInt16.ofNat k) ∧
    (call.newState = some .ackRecv → s.seq < n)
  received : s.state = .ackRecv ∨ s.sync = .received → s.seq < n
  ended : s.sync ≠ .collect → ¬ s.sync.InLoop → s.seq = s.definitions.length
  data : ∀ ts tc d, .loggingData ts tc d ∈ s.wire → s.running = true

structure Synced (s : MutelemetryStreamer) (c : MutelemetryClient) : Prop where
  phase : Phase s
  delivered : Delivered s.wire s.definitions s.seq c
  turn : Turn s c.definitions.length

section
variable {s s' : MutelemetryStreamer}

-- ---------------------------------------------------------------------------
-- The client
-- ---------------------------------------------------------------------------

theorem isPrefix_concat {l l' : List α} (h : l <+: l') (hx : l'[l.length]? = some x) :
    l ++ [x] <+: l' := by
  obtain ⟨t, rfl⟩ := h
  cases t with
  | nil => simp at hx
  | cons y t =>
    obtain rfl : y = x := by simpa using hx
    exact ⟨t, by simp⟩

/-- A message may be new to the client, and then it is the next definition. -/
theorem Delivered.receive (h : Delivered wire definitions seq c) (hw : w ∈ wire) :
    Delivered wire definitions seq (c.receive w) := by
  cases w with
  | loggingData ts tc d => exact { h with }
  | commandAck => exact h
  | loggingDataAcked ts tc j d =>
    obtain ⟨k, hk, rfl, hd⟩ := h.sent _ _ _ _ hw
    rw [MutelemetryClient.receive]
    split
    · rename_i hkept
      refine { h with acked := fun j hj => ?_ }
      rcases List.mem_append.mp hj with hj | hj
      · exact h.acked j hj
      · rw [List.mem_singleton.mp hj]
        exact (h.kept _).mp hkept
    · rename_i hnew
      have hn : k = c.definitions.length := by
        have hle : ¬ k < c.definitions.length := fun hlt => hnew ((h.kept _).mpr ⟨k, hlt, rfl⟩)
        have := h.lower
        omega
      subst hn
      have hlen : (c.definitions ++ [d]).length = c.definitions.length + 1 := by simp
      constructor
      · exact h.sent
      · exact isPrefix_concat h.received hd
      · intro j
        simp only [hlen, List.mem_cons, h.kept, Nat.exists_lt_succ_right]
        exact or_comm
      · exact hlen ▸ h.lower.trans (Nat.le_succ _)
      · exact hlen ▸ Nat.succ_le_succ hk
      · intro j hj
        simp only [hlen, Nat.exists_lt_succ_right]
        rcases List.mem_append.mp hj with hj | hj
        · exact .inl (h.acked j hj)
        · exact .inr (List.mem_singleton.mp hj)

theorem Turn.mono (h : Turn s n) (hn : n ≤ m) : Turn s m where
  one := h.one
  place := h.place
  calls := by
    intro call hc
    obtain ⟨⟨k, hk, hseq⟩, hr⟩ := h.calls call hc
    exact ⟨⟨k, hk.trans_le hn, hseq⟩, fun ha => (hr ha).trans_le hn⟩
  received := fun hr => (h.received hr).trans_le hn
  ended := h.ended
  data := h.data

theorem length_receive (c : MutelemetryClient) (w : Wire) :
    c.definitions.length ≤ (c.receive w).definitions.length := by
  cases w with
  | loggingData | commandAck => exact le_rfl
  | loggingDataAcked =>
    rw [MutelemetryClient.receive]
    split <;> simp

-- ---------------------------------------------------------------------------
-- The streamer
-- ---------------------------------------------------------------------------

def Wire.Other : Wire → Prop
  | .loggingDataAcked .. => False
  | _ => True

theorem Delivered.collect (h : Delivered wire definitions seq c) (d : Bytes) :
    Delivered wire (definitions ++ [d]) seq c where
  sent := by
    intro ts tc j d' hm
    obtain ⟨k, hk, hj, hd⟩ := h.sent ts tc j d' hm
    obtain ⟨hlt, -⟩ := List.getElem?_eq_some_iff.mp hd
    exact ⟨k, hk, hj, by rwa [List.getElem?_append_left hlt]⟩
  received := h.received.trans (List.prefix_append _ _)
  kept := h.kept
  lower := h.lower
  upper := h.upper
  acked := h.acked

theorem Delivered.other (h : Delivered wire definitions seq c) (hw : ∀ w ∈ ws, w.Other) :
    Delivered (wire ++ ws) definitions seq c where
  sent := by
    intro ts tc j d hm
    rcases List.mem_append.mp hm with hm | hm
    · exact h.sent ts tc j d hm
    · exact (hw _ hm).elim
  received := h.received
  kept := h.kept
  lower := h.lower
  upper := h.upper
  acked := h.acked

theorem Delivered.send (h : Delivered wire definitions seq c) (hd : definitions[seq]? = some d) :
    Delivered (wire ++ [.loggingDataAcked ts tc (UInt16.ofNat seq) d]) definitions seq c where
  sent := by
    intro ts tc j d' hm
    rcases List.mem_append.mp hm with hm | hm
    · exact h.sent _ _ _ _ hm
    · cases List.mem_singleton.mp hm
      exact ⟨seq, le_rfl, rfl, hd⟩
  received := h.received
  kept := h.kept
  lower := h.lower
  upper := h.upper
  acked := h.acked

theorem Delivered.next (h : Delivered wire definitions seq c) (hn : seq < c.definitions.length) :
    Delivered wire definitions (seq + 1) c where
  sent := by
    intro ts tc j d hm
    obtain ⟨k, hk, hj, hd⟩ := h.sent _ _ _ _ hm
    exact ⟨k, hk.trans (Nat.le_succ _), hj, hd⟩
  received := h.received
  kept := h.kept
  lower := hn
  upper := h.upper.trans (Nat.le_succ _)
  acked := h.acked

theorem SyncOk.lt_of_ackTurn (h : SyncOk pc state seq defs) (hpc : pc.AckTurn)
    (hst : state = .ackWait ∨ state = .resendDef) : seq < defs := by
  cases pc with
  | loop =>
    refine Nat.lt_of_le_of_ne h.2.1 fun he => ?_
    rcases h.2.2 he with rfl | ⟨-, rfl | rfl⟩ <;> rcases hst with hst | hst <;> cases hst
  | loaded | sent => exact h.2.2
  | timeout => exact h.2
  | collect | received | finalLoad | finalSet | finalRun | exited => exact hpc.elim

theorem SyncOk.ackTurn (h : SyncOk pc .ackWait seq defs) : pc.AckTurn := by
  cases pc with
  | loop | timeout => trivial
  | loaded st =>
    obtain ⟨-, ha, -⟩ := h
    rcases ha with rfl | ho
    · trivial
    · cases ho
  | sent st =>
    obtain ⟨hst, rfl, -⟩ := h
    exact hst.elim
  | collect => rcases h.1.of_init with hst | hst <;> cases hst
  | received => cases h.1
  | finalLoad => rcases h with hst | ⟨-, hst | hst⟩ <;> cases hst
  | finalSet st =>
    rcases h.1.final h.2 with rfl | ⟨-, hst⟩
    · rcases h.1 with hst | ⟨-, hst | hst⟩ <;> cases hst
    · cases hst
  | finalRun | exited =>
    rcases h with hst | ⟨-, hst⟩
    · exact hst.elim
    · cases hst

/-- While an acknowledgement is handled `sync_loop` goes on waiting, resends
after a timeout, and gets no further. -/
theorem SyncPc.AckTurn.step (hpc : s.sync.AckTurn) (hst : s.state = .ackWait ∨ s.state = .resendDef)
    (hp : Phase s) (hs : s.SyncStep s') :
    (s'.state = .ackWait ∨ s'.state = .resendDef) ∧ s'.sync.AckTurn ∧ s'.seq = s.seq := by
  have hsync := hp.sync
  cases hs with
  | asleep h | collect h | begin h | receive h | next h | finalLoad h | finalSet h | finalRun h =>
    rw [h] at hpc
    exact hpc.elim
  | rest h hst' | unexpected h hst' =>
    rw [h] at hpc
    rcases hst' with rfl | rfl <;> exact hpc.elim
  | load h =>
    refine ⟨hst, ?_, rfl⟩
    rcases hst with hst | hst <;> rw [hst] <;> trivial
  | leave h hle =>
    -- the loop ends in SEND_DEF
    rw [h] at hsync
    have hend := hsync.2.2 (Nat.le_antisymm hsync.2.1 hle)
    rcases hend with he | ⟨-, he | he⟩ <;> rw [he] at hst <;> rcases hst with hst | hst <;> cases hst
  | @send st _ _ h hsends =>
    rw [h] at hpc
    cases st <;> first | exact hpc.elim | exact hsends.elim | exact ⟨hst, trivial, rfl⟩
  | refuse => exact ⟨hst, trivial, rfl⟩
  | await h =>
    rw [h] at hsync
    rw [MutelemetryStreamer.exchange_eq hsync.2.1]
    exact ⟨.inl rfl, trivial, rfl⟩
  | tick h hpc' =>
    refine ⟨hst, ?_, rfl⟩
    rcases hpc' with ⟨rfl, -⟩ | ⟨rfl, -⟩ <;> trivial
  | resend h =>
    rcases s.exchange_cases .ackWait .resendDef with ⟨-, he⟩ | ⟨-, he⟩ <;> rw [he]
    · exact ⟨.inr rfl, trivial, rfl⟩
    · exact ⟨hst, trivial, rfl⟩

theorem MutelemetryStreamer.SyncStep.acks (hs : s.SyncStep s') : s'.acks = s.acks := by
  cases hs <;> simp

theorem MutelemetryStreamer.SyncStep.data (hs : s.SyncStep s')
    (hm : .loggingData ts tc d ∈ s'.wire) : .loggingData ts tc d ∈ s.wire := by
  cases hs <;> simpa using hm

theorem Turn.received_sync (h : Turn s n) (hp : Phase s) (hs : s.SyncStep s')
    (hr : s'.state = .ackRecv ∨ s'.sync = .received) : s'.seq < n := by
  have hsync := hp.sync
  cases hs with
  | receive hpc =>
    rw [hpc] at hsync
    have hst := hsync.2.1.eq (by decide) (by decide) hsync.1
    rw [MutelemetryStreamer.exchange_eq hst]
    exact h.received (.inl hst)
  | next hpc =>
    rw [hpc] at hsync
    simp [hsync.1] at hr
  | asleep hpc | collect hpc =>
    simp only [hpc, reduceCtorEq, or_false] at hr
    exact h.received (.inl hr)
  | begin | load | leave | send | refuse | rest | unexpected | finalLoad | finalRun =>
    simp only [reduceCtorEq, or_false] at hr
    exact h.received (.inl hr)
  | tick hpc hpc' =>
    rcases hpc' with ⟨rfl, -⟩ | ⟨rfl, -⟩ <;> simp only [reduceCtorEq, or_false] at hr
    · exact h.received (.inl hr)
    · exact h.received (.inl hr)
  | await hpc =>
    rw [hpc] at hsync
    simp [MutelemetryStreamer.exchange_eq hsync.2.1] at hr
  | resend =>
    rcases s.exchange_cases .ackWait .resendDef with ⟨-, he⟩ | ⟨-, he⟩ <;> rw [he] at hr ⊢
    · simp at hr
    · exact h.received (.inl (by simpa using hr))
  | finalSet =>
    rcases s.setState_cases _ .running with ⟨-, he⟩ | ⟨-, he⟩ <;> rw [he] at hr ⊢
    · simp at hr
    · exact h.received (.inl (by simpa using hr))

theorem Turn.ended_sync (h : Turn s n) (hp : Phase s) (hs : s.SyncStep s')
    (hc : s'.sync ≠ .collect) (hl : ¬ s'.sync.InLoop) : s'.seq = s'.definitions.length := by
  have hsync := hp.sync
  cases hs with
  | asleep hpc | collect hpc => exact (hc hpc).elim
  | begin | load | send | refuse | await | receive | next | rest | resend | unexpected =>
    exact (hl trivial).elim
  | tick _ hpc' => rcases hpc' with ⟨rfl, -⟩ | ⟨rfl, -⟩ <;> exact (hl trivial).elim
  | leave hpc hle =>
    rw [hpc] at hsync
    exact Nat.le_antisymm hsync.2.1 hle
  | finalLoad hpc | finalRun hpc => exact h.ended (by simp [hpc]) (by simp [hpc, SyncPc.InLoop])
  | finalSet hpc =>
    have hend := h.ended (by simp [hpc]) (by simp [hpc, SyncPc.InLoop])
    rcases s.setState_cases _ .running with ⟨-, he⟩ | ⟨-, he⟩ <;> rw [he] <;> exact hend

theorem Turn.syncStep (h : Turn s n) (hp : Phase s) (hs : s.SyncStep s') : Turn s' n where
  one := hs.acks ▸ h.one
  place := by
    rw [hs.acks]
    intro ha
    obtain ⟨hst, hpc⟩ := h.place ha
    exact ⟨(hpc.step hst hp hs).1, (hpc.step hst hp hs).2.1⟩
  calls := by
    rw [hs.acks]
    intro call hc
    obtain ⟨hst, hpc⟩ := h.place (List.ne_nil_of_mem hc)
    rw [(hpc.step hst hp hs).2.2]
    exact h.calls call hc
  received := h.received_sync hp hs
  ended := h.ended_sync hp hs
  data := by
    intro ts tc d hm
    have hr := h.data ts tc d (hs.data hm)
    have hx := hp.running hr
    cases hs <;> simp_all

theorem Delivered.syncStep (h : Delivered s.wire s.definitions s.seq c)
    (ht : Turn s c.definitions.length) (hs : s.SyncStep s') :
    Delivered s'.wire s'.definitions s'.seq c := by
  cases hs with
  | collect => exact h.collect _
  | send _ _ hd => exact h.send hd
  | next hpc => exact h.next (ht.received (.inr hpc))
  | await | receive | resend | finalSet => simpa using h
  | asleep | begin | load | leave | refuse | rest | tick | unexpected | finalLoad | finalRun =>
    exact h

-- ---------------------------------------------------------------------------
-- `main_loop` and the handlers
-- ---------------------------------------------------------------------------

theorem MutelemetryStreamer.Replies.data (h : MutelemetryStreamer.Replies ws)
    (hm : .loggingData ts tc d ∈ before ++ ws) : .loggingData ts tc d ∈ before := by
  rcases List.mem_append.mp hm with hm | hm
  · exact hm
  · obtain ⟨_, _, _, hw⟩ := h _ hm
    cases hw

theorem MutelemetryStreamer.Replies.other (h : MutelemetryStreamer.Replies ws) :
    ∀ w ∈ ws, w.Other := by
  intro w hw
  obtain ⟨_, _, _, rfl⟩ := h w hw
  trivial

theorem Delivered.mainStep (h : Delivered s.wire s.definitions s.seq c) (hs : s.MainStep s') :
    Delivered s'.wire s'.definitions s'.seq c := by
  cases hs with
  | send => exact h.other (by simp [Wire.Other])
  | notRunning | enter | load | loadLost | done | more | dequeue | skip => exact h

theorem Turn.mainStep (h : Turn s n) (hp : Phase s) (hs : s.MainStep s') : Turn s' n := by
  cases hs with
  | notRunning => exact h
  | enter | load | loadLost | done | more | dequeue | skip =>
    exact ⟨h.one, h.place, h.calls, h.received, h.ended, h.data⟩
  | send hm =>
    exact ⟨h.one, h.place, h.calls, h.received, h.ended, fun _ _ _ _ => hp.main (by simp [hm])⟩

theorem Turn.commandStep (h : Turn s n) (hp : Phase s) (hs : s.CommandStep i s') :
    Turn s' n := by
  cases hs with
  | compare _ _ hv =>
    cases hv <;> exact ⟨h.one, h.place, h.calls, h.received, h.ended, h.data⟩
  | refuse _ _ hws =>
    refine ⟨h.one, h.place, h.calls, h.received, h.ended, fun ts tc d hm => ?_⟩
    exact h.data ts tc d (MutelemetryStreamer.Replies.data hws hm)
  | @exchange call answer ws hcall hnew hne hws =>
    obtain ⟨ho, hcs⟩ := (hp.commands _ (List.mem_of_getElem? hcall) _ hnew).resolve_left hne
    rcases s.exchange_cases call.state answer with ⟨hst, he⟩ | ⟨-, he⟩ <;> rw [he]
    · refine ⟨h.one, fun ha => ?_, h.calls, fun hr => ?_, h.ended, fun ts tc d hm => ?_⟩
      · -- the states of the turn are not left by a command
        obtain ⟨hs | hs, -⟩ := h.place ha
        · exact (hcs (hst ▸ hs)).elim
        · rw [← hst, hs] at ho
          cases ho
      · rcases hr with (hr : answer = .ackRecv) | hr
        · exfalso
          cases hst : call.state <;> rw [hst, hr] at ho <;> cases ho
          exact hcs hst
        · exact h.received (.inr hr)
      · exact h.data ts tc d (MutelemetryStreamer.Replies.data hws hm)
    · refine ⟨h.one, h.place, h.calls, h.received, h.ended, fun ts tc d hm => ?_⟩
      exact h.data ts tc d (MutelemetryStreamer.Replies.data hws hm)

theorem Delivered.commandStep (h : Delivered s.wire s.definitions s.seq c)
    (hs : s.CommandStep i s') : Delivered s'.wire s'.definitions s'.seq c := by
  cases hs with
  | compare _ _ hv => cases hv <;> exact h
  | refuse _ _ hws => exact h.other (MutelemetryStreamer.Replies.other hws)
  | exchange _ _ _ hws => simpa using h.other (MutelemetryStreamer.Replies.other hws)

theorem ofNat_uint16_inj (hk : k < 65536) (hm : m < 65536) (h : UInt16.ofNat k = UInt16.ofNat m) :
    k = m := by
  rw [← UInt16.toNat_ofNat_of_lt' hk, h, UInt16.toNat_ofNat_of_lt' hm]

theorem Turn.ackStep (h : Turn s n) (hp : Phase s) (hn : n ≤ s.definitions.length)
    (hlen : s.definitions.length ≤ 65536) (hs : s.AckStep i s') : Turn s' n := by
  cases hs with
  | @agrees call hcall _ hseq =>
    have hmem := List.mem_of_getElem? hcall
    obtain ⟨⟨k, hk, hck⟩, -⟩ := h.calls call hmem
    obtain ⟨hst, hpc⟩ := h.place (List.ne_nil_of_mem hmem)
    have hlt := hp.sync.lt_of_ackTurn hpc hst
    obtain rfl : k = s.seq := ofNat_uint16_inj (by omega) (by omega) (hck.symm.trans hseq)
    refine ⟨by simpa using h.one, fun _ => ⟨hst, hpc⟩, ?_, h.received, h.ended, h.data⟩
    intro call hc
    rcases List.mem_or_eq_of_mem_set hc with hc | rfl
    · exact h.calls call hc
    · exact ⟨⟨_, hk, hseq⟩, fun _ => hk⟩
  | @differs call hcall _ hseq =>
    have hmem := List.mem_of_getElem? hcall
    obtain ⟨hk, -⟩ := h.calls call hmem
    refine ⟨by simpa using h.one, fun _ => h.place (List.ne_nil_of_mem hmem), ?_, h.received,
      h.ended, h.data⟩
    intro call hc
    rcases List.mem_or_eq_of_mem_set hc with hc | rfl
    · exact h.calls call hc
    · exact ⟨hk, fun ha => by cases ha⟩
  | @exchange call answer hcall hnew =>
    have hmem := List.mem_of_getElem? hcall
    obtain ⟨-, hr⟩ := h.calls call hmem
    have hnil : s.acks.eraseIdx i = [] := by
      obtain ⟨hi, -⟩ := List.getElem?_eq_some_iff.mp hcall
      have := h.one
      rw [← List.length_eq_zero_iff, List.length_eraseIdx_of_lt hi]
      omega
    rw [hnil]
    rcases s.exchange_cases .ackWait answer with ⟨-, he⟩ | ⟨-, he⟩ <;> rw [he]
    · refine ⟨by simp, fun ha => absurd rfl ha, by simp, fun hrec => ?_, h.ended, h.data⟩
      rcases hrec with rfl | hrec
      · exact hr hnew
      · exact h.received (.inr hrec)
    · exact ⟨by simp, fun ha => absurd rfl ha, by simp, h.received, h.ended, h.data⟩

theorem Delivered.ackStep (h : Delivered s.wire s.definitions s.seq c) (hs : s.AckStep i s') :
    Delivered s'.wire s'.definitions s'.seq c := by
  cases hs with
  | agrees | differs => exact h
  | exchange => simpa using h

-- ---------------------------------------------------------------------------
-- Runs
-- ---------------------------------------------------------------------------

theorem Synced.streamer (h : Synced s c) (hlen : s.definitions.length ≤ 65536)
    (he : ∀ sa j, e ≠ .loggingAck sa j) (hs : s.step e = some s') : Synced s' c := by
  obtain ⟨hp, hd, ht⟩ := h
  cases e with
  | enqueue dp =>
    cases hs
    exact ⟨{ hp with }, hd, ⟨ht.one, ht.place, ht.calls, ht.received, ht.ended, ht.data⟩⟩
  | sync =>
    have hs' := MutelemetryStreamer.syncLoop_step hs
    exact ⟨hp.syncStep hs', hd.syncStep ht hs', ht.syncStep hp hs'⟩
  | discard =>
    have hs' := MutelemetryStreamer.discardLoop_step hs
    refine ⟨hp.discardStep hs', ?_, ?_⟩
    · cases hs' <;> exact hd
    · cases hs' <;> exact ⟨ht.one, ht.place, ht.calls, ht.received, ht.ended, ht.data⟩
  | main =>
    have hs' := MutelemetryStreamer.mainLoop_step hs
    exact ⟨hp.mainStep hs', hd.mainStep hs', ht.mainStep hp hs'⟩
  | command command sa confirmation =>
    refine ⟨hp.step hs, ?_, ?_⟩ <;> cases hs <;>
      rcases s.protoCommandHandler_cases command sa confirmation with ⟨-, he⟩ | ⟨-, he⟩ <;> rw [he]
    · exact hd
    · exact hd
    · exact ht
    · exact ⟨ht.one, ht.place, ht.calls, ht.received, ht.ended, ht.data⟩
  | commandStep i =>
    have hs' := MutelemetryStreamer.commandStep_step hs
    exact ⟨hp.commandStep hs', hd.commandStep hs', ht.commandStep hp hs'⟩
  | loggingAck sa j => exact (he sa j rfl).elim
  | ackStep i =>
    have hs' := MutelemetryStreamer.ackStep_step hs
    exact ⟨hp.ackStep hs', hd.ackStep hs', ht.ackStep hp hd.received.length_le hlen hs'⟩

theorem Synced.ack (h : Synced s c) (hnil : s.acks = []) (hj : j ∈ c.acks) :
    Synced (s.protoLoggingAckHandler sa j) c := by
  have hp' : Phase (s.protoLoggingAckHandler sa j) := h.phase.step (e := .loggingAck sa j) rfl
  rcases s.protoLoggingAckHandler_cases sa j with ⟨hst, he⟩ | ⟨-, he⟩ <;> rw [he] at hp' ⊢
  · refine ⟨hp', h.delivered, ⟨by simp [hnil], fun _ => ?_, ?_, h.turn.received, h.turn.ended,
      h.turn.data⟩⟩
    · have hsync := h.phase.sync
      rw [hst] at hsync
      exact ⟨.inl hst, hsync.ackTurn⟩
    · intro call hc
      simp only [hnil, List.nil_append, List.mem_singleton] at hc
      subst hc
      exact ⟨h.delivered.acked j hj, fun ha => by cases ha⟩
  · exact h

theorem prefix_definitions (hs : s.step e = some s') : s.definitions <+: s'.definitions := by
  cases e with
  | sync => cases MutelemetryStreamer.syncLoop_step hs <;> simp
  | main => cases MutelemetryStreamer.mainLoop_step hs <;> simp
  | discard => cases MutelemetryStreamer.discardLoop_step hs <;> simp
  | commandStep i =>
    cases MutelemetryStreamer.commandStep_step hs with
    | compare _ _ hv => cases hv <;> simp
    | refuse | exchange => simp
  | ackStep i => cases MutelemetryStreamer.ackStep_step hs <;> simp
  | enqueue => cases hs; simp
  | command command sa confirmation =>
    cases hs
    rcases s.protoCommandHandler_cases command sa confirmation with ⟨-, he⟩ | ⟨-, he⟩ <;> simp [he]
  | loggingAck sa j =>
    cases hs
    rcases s.protoLoggingAckHandler_cases sa j with ⟨-, he⟩ | ⟨-, he⟩ <;> simp [he]

end

namespace System

/-- The sequence number of a definition fits the wire. -/
def Fits (s : System) : Prop := s.streamer.definitions.length ≤ 65536

instance (s : System) : Decidable s.Fits := inferInstanceAs (Decidable (_ ≤ _))

theorem step_streamer (hs : step s (.streamer e) = some s') :
    (∀ sa j, e ≠ .loggingAck sa j) ∧
      ∃ t, s.streamer.step e = some t ∧ s' = { s with streamer := t } := by
  cases e with
  | loggingAck => cases hs
  | enqueue | sync | discard | main | command | commandStep | ackStep =>
    obtain ⟨t, ht, rfl⟩ := Option.map_eq_some_iff.mp (by simpa only [step] using hs)
    exact ⟨by simp, t, ht, rfl⟩

theorem synced_step {s s' : System} (h : s.Fits → Synced s.streamer s.client)
    (hs : s.step e = some s') (hfits : s'.Fits) : Synced s'.streamer s'.client := by
  cases e with
  | streamer e =>
    obtain ⟨he, t, ht, rfl⟩ := step_streamer hs
    have hs : s.Fits := (prefix_definitions ht).length_le.trans hfits
    exact (h hs).streamer hs he ht
  | deliver i =>
    obtain ⟨w, hw, rfl⟩ := Option.map_eq_some_iff.mp hs
    have h := h hfits
    exact ⟨h.phase, h.delivered.receive (List.mem_of_getElem? hw),
      h.turn.mono (length_receive s.client w)⟩
  | ack i =>
    rw [step] at hs
    split at hs
    · rename_i hnil
      obtain ⟨j, hj, rfl⟩ := Option.map_eq_some_iff.mp hs
      have hs : s.Fits := by
        rcases s.streamer.protoLoggingAckHandler_cases s.client.address j with
          ⟨-, he⟩ | ⟨-, he⟩ <;> simpa [Fits, he] using hfits
      exact (h hs).ack (List.isEmpty_iff.mp hnil) (List.mem_of_getElem? hj)
    · cases hs

theorem synced_new (rt : Bool) (address : SparseAddress) :
    Synced (new rt address).streamer (new rt address).client where
  phase := phase_new rt
  delivered := by constructor <;> simp [new, MutelemetryStreamer.new]
  turn := by constructor <;> simp [new, MutelemetryStreamer.new]

theorem synced_of_reachable (h : Transition.Reachable step (new rt address) s) (hfits : s.Fits) :
    Synced s.streamer s.client :=
  h.invariant (fun s => s.Fits → Synced s.streamer s.client) synced_step
    (fun _ => synced_new rt address) hfits

/-- The client parses the definitions in order, each once and none ahead of
the streamer's count; data is sent when it has parsed them all. -/
theorem handshake_delivers (h : Transition.Reachable step (new rt address) s) (hfits : s.Fits) :
    s.client.definitions <+: s.streamer.definitions ∧
    (∀ k, k < s.streamer.seq →
      k < s.client.definitions.length ∧ UInt16.ofNat k ∈ s.client.sequenceKeeper) ∧
    (∀ ts tc d, .loggingData ts tc d ∈ s.streamer.wire →
      s.client.definitions = s.streamer.definitions) := by
  obtain ⟨hp, hd, ht⟩ := synced_of_reachable h hfits
  refine ⟨hd.received, fun k hk => ?_, fun ts tc d hm => ?_⟩
  · have hn := hk.trans_le hd.lower
    exact ⟨hn, (hd.kept _).mpr ⟨k, hn, rfl⟩⟩
  · have hx := hp.running (ht.data ts tc d hm)
    have hseq := ht.ended (by simp [hx]) (by simp [hx, SyncPc.InLoop])
    exact hd.received.eq_of_length_le (hseq ▸ hd.lower)

/-- One definition, delivered twice and acknowledged, then one data message. -/
def oneSession : List Event :=
  [.streamer (.enqueue (fileHeader 0)), .streamer (.enqueue [2, 0, 65, 0, 0]),
    .streamer .sync, .streamer .sync, .streamer (.command .loggingStart ⟨1, 1⟩ false),
    .streamer (.commandStep 0), .streamer (.commandStep 0),
    .streamer .sync, .streamer .sync, .streamer .sync, .deliver 0, .deliver 0,
    .ack 0, .streamer (.ackStep 0), .streamer (.ackStep 0)] ++
  List.replicate 7 (.streamer .sync) ++ List.replicate 5 (.streamer .main)

theorem handshake_delivers_oneSession : ∃ s,
    Transition.run step (new false ⟨1, 1⟩) oneSession = some s ∧
    .loggingData 1 1 [2, 0, 65, 0, 0] ∈ s.streamer.wire ∧ s.streamer.seq = 1 ∧
    s.client.definitions = s.streamer.definitions := by
  have hrun : (Transition.run step (new false ⟨1, 1⟩) oneSession).isSome := by decide +kernel
  have hsome := (Option.some_get hrun).symm
  have hdata : .loggingData 1 1 [2, 0, 65, 0, 0] ∈ (Option.get _ hrun).streamer.wire := by
    decide +kernel +revert
  refine ⟨_, hsome, hdata, by decide +kernel +revert, ?_⟩
  exact (handshake_delivers ⟨oneSession, hsome⟩ (by decide +kernel +revert)).2.2 1 1 _ hdata

end System

end Mutelemetry.Network
