import Mutelemetry.Network.Ownership

/-!
# Who drives the handshake

The handler of LOGGING_ACK does not look at the sender. `Driven` says that each
turn of the handshake goes back to an acknowledgement of one client; it holds
when the acknowledgements that arrive in ACK_WAIT are that client's.
-/

namespace Mutelemetry.Network

open ByteString Ulog StreamerState

def SyncPc.Received : SyncPc → Prop
  | .received => True
  | .loaded st => st = .ackRecv
  | _ => False

namespace MutelemetryStreamer

/-- An acknowledgement that arrives in ACK_WAIT is of `c`, and `seq_` does not
go on between a handler's comparison with it and the exchange to ACK_RECV. -/
def FromClient (c : SparseAddress) (s : MutelemetryStreamer) : Event → Prop
  | .loggingAck sa _ => s.state = .ackWait → sa = c
  | .sync => s.sync = .received → ∀ call ∈ s.acks, call.newState ≠ some .ackRecv
  | _ => True

inductive Acknowledges (s : MutelemetryStreamer) : Event → MutelemetryStreamer → Prop
  | still : s'.acks = s.acks → s'.seq = s.seq → (s'.state = .ackRecv → s.state = .ackRecv) →
    (s'.sync.Received → s.sync.Received) → Acknowledges s e s'
  | load : Acknowledges s .sync { s with sync := .loaded s.state }
  | next : s.sync = .received → Acknowledges s .sync { s with seq := s.seq + 1, sync := .loop }
  | arrive {sequence : UInt16} : s.state = .ackWait → Acknowledges s (.loggingAck sa sequence) { s with
      acks := s.acks ++ [⟨sa, sequence, none⟩] }
  | compare : s.acks[i]? = some call → (answer = .ackRecv → call.sequence = UInt16.ofNat s.seq) →
    Acknowledges s (.ackStep i) { s with
      acks := s.acks.set i { call with newState := some answer } }
  | exchange : s.acks[i]? = some call → call.newState = some answer →
    Acknowledges s (.ackStep i) { s.exchange .ackWait answer with acks := s.acks.eraseIdx i }

variable {s s' : MutelemetryStreamer} {c : SparseAddress}

theorem ackRecv_of_exchange (hne : answer ≠ .ackRecv)
    (h : (s.exchange old answer).state = .ackRecv) : s.state = .ackRecv := by
  obtain ⟨-, he⟩ | ⟨-, he⟩ := s.exchange_cases old answer
  · rw [he] at h
    exact absurd h hne
  · rwa [he] at h

theorem SyncStep.acknowledges (hs : s.SyncStep s') : Acknowledges s .sync s' := by
  cases hs with
  | load => exact .load
  | next hpc => exact .next hpc
  | await | resend =>
    exact .still (exchange_acks s _ _) (exchange_seq s _ _) (ackRecv_of_exchange (by decide)) nofun
  | receive hpc =>
    refine .still (exchange_acks s _ _) (exchange_seq s _ _) (ackRecv_of_exchange (by decide)) ?_
    intro
    rw [hpc]
    rfl
  | @finalSet st =>
    refine .still (setState_acks s _ _) (setState_seq s _ _) (fun hst => ?_) nofun
    obtain ⟨-, he⟩ | ⟨-, he⟩ := s.setState_cases st .running
    · rw [he] at hst
      cases hst
    · rwa [he] at hst
  | tick _ hpc =>
    refine .still rfl rfl id fun hr => ?_
    obtain ⟨rfl, -⟩ | ⟨rfl, -⟩ := hpc
    · exact hr.elim
    · exact hr.elim
  | asleep | collect => exact .still rfl rfl id id
  | begin | leave | send | refuse | rest | unexpected | finalLoad | finalRun =>
    exact .still rfl rfl id nofun

theorem acknowledges_of_step (hp : Phase s) (hs : s.step e = some s') : Acknowledges s e s' := by
  cases e with
  | enqueue dp =>
    cases hs
    exact .still rfl rfl id id
  | sync => exact (syncLoop_step hs).acknowledges
  | discard => cases discardLoop_step hs <;> exact .still rfl rfl id id
  | main => cases mainLoop_step hs <;> exact .still rfl rfl id id
  | command command sa confirmation =>
    cases hs
    obtain ⟨-, he⟩ | ⟨-, he⟩ := s.protoCommandHandler_cases command sa confirmation
    · rw [he]
      exact .still rfl rfl id id
    · rw [he]
      exact .still rfl rfl id id
  | commandStep i =>
    cases commandStep_step hs with
    | compare _ _ hv => cases hv <;> exact .still rfl rfl id id
    | refuse => exact .still rfl rfl id id
    | @exchange call answer _ hcall hnew hu =>
      have ho := (hp.commands _ (List.mem_of_getElem? hcall) _ hnew).resolve_left hu
      have hne : answer ≠ .ackRecv := by
        rintro rfl
        generalize call.state = st at ho
        obtain ⟨ho, hw⟩ := ho
        cases ho
        exact hw rfl
      obtain ⟨state, failed, he⟩ := s.exchange_frame call.state answer
      refine .still (exchange_acks s _ _) (exchange_seq s _ _) (ackRecv_of_exchange hne) ?_
      rw [he]
      exact id
  | loggingAck sa sequence =>
    cases hs
    obtain ⟨hst, he⟩ | ⟨-, he⟩ := s.protoLoggingAckHandler_cases sa sequence
    · rw [he]
      exact .arrive hst
    · rw [he]
      exact .still rfl rfl id id
  | ackStep i =>
    cases ackStep_step hs with
    | agrees hcall _ hseq => exact .compare hcall fun _ => hseq
    | differs hcall => exact .compare hcall nofun
    | exchange hcall hnew => exact .exchange hcall hnew

/-- What the handshake has come to goes back to an acknowledgement of `c`. -/
structure Driven (c : SparseAddress) (past : List Event) (s : MutelemetryStreamer) : Prop where
  calls : ∀ call ∈ s.acks, call.sa = c ∧ .loggingAck c call.sequence ∈ past
  compared : ∀ call ∈ s.acks, call.newState = some .ackRecv → call.sequence = UInt16.ofNat s.seq
  state : s.state = .ackRecv → .loggingAck c (UInt16.ofNat s.seq) ∈ past
  sync : s.sync.Received → .loggingAck c (UInt16.ofNat s.seq) ∈ past

theorem Driven.step (h : Driven c past s) (hp : Phase s) (hc : FromClient c s e)
    (hs : s.step e = some s') : Driven c (past ++ [e]) s' := by
  have hpast {e' : Event} (he : e' ∈ past) : e' ∈ past ++ [e] := List.mem_append_left _ he
  cases acknowledges_of_step hp hs with
  | still hacks hseq hstate hsync =>
    refine ⟨?_, ?_, fun hst => ?_, fun hr => ?_⟩
    · rw [hacks]
      exact fun call hmem => (h.calls call hmem).imp id hpast
    · rw [hacks, hseq]
      exact h.compared
    · rw [hseq]
      exact hpast (h.state (hstate hst))
    · rw [hseq]
      exact hpast (h.sync (hsync hr))
  | load =>
    refine ⟨fun call hmem => (h.calls call hmem).imp id hpast, h.compared,
      fun hst => hpast (h.state hst), fun hr => hpast (h.state hr)⟩
  | next hpc =>
    refine ⟨fun call hmem => (h.calls call hmem).imp id hpast, ?_, ?_, nofun⟩
    · exact fun call hmem hnew => absurd hnew (hc hpc call hmem)
    · intro hst
      have hsync := hp.sync
      rw [hpc] at hsync
      cases hst.symm.trans hsync.1
  | @arrive sa sequence hst =>
    obtain rfl := hc hst
    refine ⟨?_, ?_, fun hst => hpast (h.state hst), fun hr => hpast (h.sync hr)⟩
    · intro call hmem
      obtain hmem | hmem := List.mem_append.mp hmem
      · exact (h.calls call hmem).imp id hpast
      · rw [List.mem_singleton.mp hmem]
        exact ⟨rfl, by simp⟩
    · intro call hmem hnew
      obtain hmem | hmem := List.mem_append.mp hmem
      · exact h.compared call hmem hnew
      · rw [List.mem_singleton.mp hmem] at hnew
        cases hnew
  | compare hcall hseq =>
    refine ⟨?_, ?_, fun hst => hpast (h.state hst), fun hr => hpast (h.sync hr)⟩
    · intro d hmem
      obtain hmem | rfl := List.mem_or_eq_of_mem_set hmem
      · exact (h.calls d hmem).imp id hpast
      · exact (h.calls _ (List.mem_of_getElem? hcall)).imp id hpast
    · intro d hmem hnew
      obtain hmem | rfl := List.mem_or_eq_of_mem_set hmem
      · exact h.compared d hmem hnew
      · exact hseq (Option.some_inj.mp hnew)
  | @exchange i call answer hcall hnew =>
    have hcalls (d : AckCall) (hmem : d ∈ s.acks.eraseIdx i) :=
      (h.calls d (List.mem_of_mem_eraseIdx hmem)).imp id hpast
    have hcompared (d : AckCall) (hmem : d ∈ s.acks.eraseIdx i) :=
      h.compared d (List.mem_of_mem_eraseIdx hmem)
    obtain ⟨-, he⟩ | ⟨-, he⟩ := s.exchange_cases .ackWait answer
    · rw [he]
      refine ⟨hcalls, hcompared, ?_, fun hr => hpast (h.sync hr)⟩
      rintro rfl
      have hmem := List.mem_of_getElem? hcall
      exact hpast (h.compared call hmem hnew ▸ (h.calls call hmem).2)
    · rw [he]
      exact ⟨hcalls, hcompared, fun hst => hpast (h.state hst), fun hr => hpast (h.sync hr)⟩

-- ---------------------------------------------------------------------------
-- Runs
-- ---------------------------------------------------------------------------

theorem idle_of_init (h : Transition.run step (.new rt) es = some s) (hst : s.state = .init) :
    s.acks = [] ∧ s.seq = 0 := by
  refine (Transition.run_invariant (fun m => Phase m ∧ (m.state = .init → m.acks = [] ∧ m.seq = 0))
    (fun {m e m'} ⟨hp, hm⟩ hs => ⟨hp.step hs, fun hst => ?_⟩) h ⟨phase_new rt, fun _ => ⟨rfl, rfl⟩⟩).2
    hst
  have hst₀ := init_of_step hp hs hst
  obtain ⟨hnil, hseq⟩ := hm hst₀
  cases acknowledges_of_step hp hs with
  | still hacks hseq' => exact ⟨hacks.trans hnil, hseq'.trans hseq⟩
  | load => exact ⟨hnil, hseq⟩
  | next hpc =>
    have hsync := hp.sync
    rw [hpc] at hsync
    cases hsync.1.symm.trans hst₀
  | arrive hwait => cases hst₀.symm.trans hwait
  | compare hcall | exchange hcall =>
    rw [hnil] at hcall
    cases hcall

/-- The last event of the run is the exchange of a START of `c`, which took INIT
to CONNECTED. -/
def Connects (rt : Bool) (es : List Event) (c : SparseAddress) (s : MutelemetryStreamer) : Prop :=
  ∃ as i s₀ call, es = as ++ [.commandStep i] ∧ Transition.run step (.new rt) as = some s₀ ∧
    s₀.state = .init ∧ s₀.commands[i]? = some call ∧ call.sa = c ∧
    s₀.step (.commandStep i) = some s ∧ s.state = .connected

def Connected (rt : Bool) (es : List Event) (s : MutelemetryStreamer) : Prop :=
  ∃ as bs c s₁, es = as ++ bs ∧ Connects rt as c s₁ ∧ Transition.run step s₁ bs = some s

theorem Connected.concat (h : Connected rt es s) (hs : s.step e = some s') :
    Connected rt (es ++ [e]) s' := by
  obtain ⟨as, bs, c, s₁, rfl, hconn, hrun⟩ := h
  exact ⟨as, bs ++ [e], c, s₁, by simp, hconn, Transition.run_concat.mpr ⟨s, hrun, hs⟩⟩

theorem connected_of_handshake (h : Transition.run step (.new rt) es = some s)
    (hh : s.state.Handshake) (hne : s.state ≠ .init) : Connected rt es s := by
  refine (Transition.run_history (fun past m => Transition.run step (.new rt) past = some m ∧
    (m.state.Handshake → m.state ≠ .init → Connected rt past m)) ?_ h
    ⟨Transition.run_nil, fun _ hne => absurd rfl hne⟩).2 hh hne
  intro past m e m' ⟨hm, ih⟩ hs
  refine ⟨Transition.run_concat.mpr ⟨m, hm, hs⟩, fun hh hne => ?_⟩
  cases (phase_of_reachable ⟨past, hm⟩).turns hs with
  | still heq => exact (ih (heq ▸ hh) (heq ▸ hne)).concat hs
  | sync _ hl => exact (ih hl.handshake.1.1 hl.handshake.1.2).concat hs
  | final _ hrun =>
    rw [hrun] at hh
    exact hh.elim
  | ack _ _ _ hst => exact (ih (by rw [hst]; trivial) (by rw [hst]; decide)).concat hs
  | @command i call _ hcall _ ho hw =>
    generalize hold : m.state = old at ho hw
    generalize hnew : m'.state = answer at ho hh
    cases ho with
    | start =>
      exact ⟨_, [], _, m', by simp, ⟨past, i, m, call, rfl, hm, hold, hcall, rfl, hs, hnew⟩, rfl⟩
    | resume | halt => exact hh.elim
    | ack | nack => exact absurd rfl hw

/-- `seq_` goes on only for an acknowledgement that `c` sent of this definition,
and an acknowledgement of anyone else changes neither the state nor `seq_`. -/
structure DrivenBy (c : SparseAddress) (past : List Event) (s : MutelemetryStreamer) (e : Event)
    (s' : MutelemetryStreamer) : Prop where
  advances : s'.seq ≠ s.seq → s'.seq = s.seq + 1 ∧ .loggingAck c (UInt16.ofNat s.seq) ∈ past
  arrives : ∀ sa sequence, e = .loggingAck sa sequence → sa ≠ c →
    s'.state = s.state ∧ s'.seq = s.seq
  handled : ∀ (i : Nat) (call : AckCall), e = .ackStep i → s.acks[i]? = some call → call.sa ≠ c →
    s'.state = s.state ∧ s'.seq = s.seq

theorem Connects.driven (h : Connects rt es c s) : Phase s ∧ Driven c [] s := by
  obtain ⟨as, i, s₀, call, rfl, has, hst, hcall, rfl, hs, hconn⟩ := h
  have hp := phase_of_reachable ⟨as, has⟩
  have hp' := hp.step hs
  have hnil : s.acks = [] := by
    have hnil₀ := (idle_of_init has hst).1
    cases commandStep_step hs with
    | compare _ _ hv => cases hv <;> exact hnil₀
    | refuse => exact hnil₀
    | exchange => exact (exchange_acks s₀ _ _).trans hnil₀
  refine ⟨hp', by simp [hnil], by simp [hnil], fun hst => ?_, fun hr => ?_⟩
  · cases hst.symm.trans hconn
  · have hsync := hp'.sync
    rw [hconn] at hsync
    cases hpc : s.sync with
    | received =>
      rw [hpc] at hsync
      cases hsync.1
    | loaded st =>
      rw [hpc] at hsync hr
      obtain rfl : st = .ackRecv := hr
      cases hsync.2.1.eq (by decide) (by decide) trivial
    | collect | loop | sent | timeout | finalLoad | finalSet | finalRun | exited =>
      rw [hpc] at hr
      exact hr.elim

/-- `seq_` goes on only behind a START that was accepted. From there on the
handshake is driven by the client that sent it, when no acknowledgement of anyone
else arrives in ACK_WAIT and none is overtaken. -/
theorem client_drives (h : Transition.run step (.new rt) es = some s)
    (hs : s.step e = some s') :
    (s'.seq ≠ s.seq → Connected rt es s) ∧
    ∀ as bs c s₁, Connects rt as c s₁ → Transition.Guarded step (FromClient c) s₁ bs s →
      DrivenBy c bs s e s' := by
  have hp := phase_of_reachable ⟨es, h⟩
  constructor
  · intro hne
    cases acknowledges_of_step hp hs with
    | still _ hseq => exact absurd hseq hne
    | load | arrive | compare => exact absurd rfl hne
    | exchange => exact absurd (exchange_seq s _ _) hne
    | next hpc =>
      have hsync := hp.sync
      rw [hpc] at hsync
      exact connected_of_handshake h (by rw [hsync.1]; trivial) (by rw [hsync.1]; decide)
  · intro as bs c s₁ hconn hbs
    obtain ⟨hp₁, hstart⟩ := hconn.driven
    have h := (hbs.history (fun past m => Phase m ∧ Driven c past m)
      (fun ⟨hp, h⟩ hc hs => ⟨hp.step hs, h.step hp hc hs⟩) ⟨hp₁, hstart⟩).2
    refine ⟨fun hne => ?_, ?_, ?_⟩
    · cases acknowledges_of_step hp hs with
      | still _ hseq => exact absurd hseq hne
      | load | arrive | compare => exact absurd rfl hne
      | exchange => exact absurd (exchange_seq s _ _) hne
      | next hpc => exact ⟨rfl, h.sync (by rw [hpc]; trivial)⟩
    · rintro sa sequence rfl -
      cases hs
      obtain ⟨-, he⟩ | ⟨-, he⟩ := s.protoLoggingAckHandler_cases sa sequence
      · rw [he]
        exact ⟨rfl, rfl⟩
      · rw [he]
        exact ⟨rfl, rfl⟩
    · rintro j d rfl hd hne
      exact absurd (h.calls d (List.mem_of_getElem? hd)).1 hne

def acknowledging (sa : SparseAddress) : List Event :=
  [.sync, .sync, .sync, .loggingAck sa 0, .ackStep 0, .ackStep 0, .sync, .sync]

theorem client_drives_oneClient : ∃ s₁ s s',
    Connects false (courting ⟨1, 1⟩ ++ [.commandStep 0]) ⟨1, 1⟩ s₁ ∧
    Transition.run step s₁ (acknowledging ⟨1, 1⟩) = some s ∧ s.step .sync = some s' ∧
    s.seq = 0 ∧ s'.seq = 1 ∧ DrivenBy ⟨1, 1⟩ (acknowledging ⟨1, 1⟩) s .sync s' := by
  have hconn : Connects false (courting ⟨1, 1⟩ ++ [.commandStep 0]) ⟨1, 1⟩ _ :=
    ⟨courting ⟨1, 1⟩, 0, _, _, rfl, by rfl, by rfl, by rfl, by rfl, by rfl, by rfl⟩
  refine ⟨_, _, _, hconn, by rfl, by rfl, by rfl, by rfl, ?_⟩
  refine (client_drives
    (show Transition.run step (.new false)
      (courting ⟨1, 1⟩ ++ [.commandStep 0] ++ acknowledging ⟨1, 1⟩) = some _ by rfl)
    (by rfl)).2 _ _ _ _ hconn ?_
  refine .cons ?_ (by rfl) (.cons ?_ (by rfl) (.cons ?_ (by rfl) (.cons (fun _ => rfl) (by rfl)
    (.cons trivial (by rfl) (.cons trivial (by rfl) (.cons ?_ (by rfl)
      (.cons ?_ (by rfl) .nil)))))))
  all_goals
    intro hpc
    cases hpc

/-- Another node acknowledges the definition, and it counts. -/
theorem stranger_drives : ¬ ∀ rt es s e s', Transition.run step (.new rt) es = some s →
    s.step e = some s' → ∀ as bs c s₁, Connects rt as c s₁ →
    Transition.run step s₁ bs = some s → DrivenBy c bs s e s' := by
  intro h
  have hbad := h false (courting ⟨1, 1⟩ ++ [.commandStep 0] ++ acknowledging ⟨2, 2⟩) _ .sync _
    (by rfl) (by rfl) (courting ⟨1, 1⟩ ++ [.commandStep 0]) (acknowledging ⟨2, 2⟩) ⟨1, 1⟩ _
    ⟨courting ⟨1, 1⟩, 0, _, _, rfl, by rfl, by rfl, by rfl, by rfl, by rfl, by rfl⟩ (by rfl)
  have hmem := (hbad.advances (by decide)).2
  simp [acknowledging] at hmem

end MutelemetryStreamer

end Mutelemetry.Network
