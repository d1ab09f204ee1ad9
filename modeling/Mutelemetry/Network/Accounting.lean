import Mutelemetry.Network.Phase

/-!
# The accounts of the streamer

Three loops take from one queue. `Enqueued` says where each message enqueued so
far is, and who may take the next one; `Ledger` says what became of those that
`discard_loop` and `main_loop` removed. A message that `main_loop` has dequeued
and neither sent nor skipped is in no account yet.
-/

namespace Mutelemetry.Network

open ByteString Ulog

def Event.enqueued : Event → Option Bytes
  | .enqueue dp => some dp
  | _ => none

def Wire.streamed : Wire → Option Bytes
  | .loggingData _ _ data => some data
  | _ => none

def MainPc.held : MainPc → List Bytes
  | .dequeued _ dp => [dp]
  | _ => []

namespace MutelemetryStreamer

def removed (s : MutelemetryStreamer) : Event → List Bytes
  | .discard => if s.discard = .dequeue then s.dataQueue.take 1 else []
  | .main => match s.main with
    | .dequeue _ => s.dataQueue.take 1
    | _ => []
  | _ => []

@[simp] theorem removed_enqueue (s : MutelemetryStreamer) (dp : Bytes) :
    s.removed (.enqueue dp) = [] := rfl

@[simp] theorem removed_sync (s : MutelemetryStreamer) : s.removed .sync = [] := rfl

def removals (s : MutelemetryStreamer) (es : List Event) : List Bytes :=
  Transition.trace step removed s es

end MutelemetryStreamer

open MutelemetryStreamer

-- ---------------------------------------------------------------------------
-- What a step does to the accounts
-- ---------------------------------------------------------------------------

/-- No message moves, and none of the loops gets to a place where it may move
another. -/
structure Quiet (s s' : MutelemetryStreamer) : Prop where
  definitions : s'.definitions = s.definitions
  dataQueue : s'.dataQueue = s.dataQueue
  held : s'.main.held = s.main.held
  wire : s'.wire.filterMap Wire.streamed = s.wire.filterMap Wire.streamed
  sendCntr : s'.sendCntr = s.sendCntr
  skipCntr : s'.skipCntr = s.skipCntr
  discarding : s'.discarding = s.discarding
  sync : s'.sync = .collect ↔ s.sync = .collect
  discard : s.discarding = false → s.discard = .waiting ∨ s.discard = .exited →
    s'.discard = s.discard

inductive Moves (s : MutelemetryStreamer) : Event → MutelemetryStreamer → Prop
  | quiet : e.enqueued = none → s.removed e = [] → Quiet s s' → Moves s e s'
  | enqueue : Moves s (.enqueue dp) { s with dataQueue := s.dataQueue ++ [dp] }
  | collect : s.sync = .collect → s.dataQueue = dp :: rest → checkUlogDataBegin dp = false →
    Moves s .sync { s with dataQueue := rest, definitions := s.definitions ++ [dp] }
  | begin : s.sync = .collect → s.dataQueue = dp :: rest → checkUlogDataBegin dp = true →
    Moves s .sync { s with discarding := true, sync := .loop }
  | discard : s.discard = .dequeue → s.dataQueue = dp :: rest → s.removed .discard = [dp] →
    Moves s .discard { s with dataQueue := rest, skipCntr := s.skipCntr + 1, discard := .loop }
  | dequeue : s.main = .dequeue st → s.dataQueue = dp :: rest → s.removed .main = [dp] →
    Moves s .main { s with dataQueue := rest, main := .dequeued st dp }
  | skip : s.main = .dequeued st dp → s.removed .main = [] →
    Moves s .main { s with skipCntr := s.skipCntr + 1, main := .draining st }
  | send : s.main = .dequeued st dp → s.removed .main = [] →
    Moves s .main { s with
      wire := s.wire ++ [.loggingData s.targetSystem s.targetComponent dp]
      sendCntr := s.sendCntr + 1
      main := .draining st }

theorem quiet_self (s : MutelemetryStreamer) : Quiet s s :=
  ⟨rfl, rfl, rfl, rfl, rfl, rfl, rfl, .rfl, fun _ _ => rfl⟩

theorem quiet_exchange (s : MutelemetryStreamer) (old new : StreamerState) :
    Quiet s (s.exchange old new) := by
  obtain ⟨state, failed, h⟩ := s.exchange_frame old new
  rw [h]
  exact ⟨rfl, rfl, rfl, rfl, rfl, rfl, rfl, .rfl, fun _ _ => rfl⟩

theorem Quiet.move (h : Quiet s s') (hpc : s.sync ≠ .collect) (hpc' : pc ≠ .collect) :
    Quiet s { s' with sync := pc } :=
  { h with sync := iff_of_false hpc' hpc }

theorem MutelemetryStreamer.SyncStep.moves (hs : s.SyncStep s') : Moves s .sync s' := by
  cases hs with
  | asleep => exact .quiet rfl rfl (quiet_self s)
  | collect hpc hq hb => exact .collect hpc hq hb
  | begin hpc hq hb => exact .begin hpc hq hb
  | send hpc =>
    have hwire (w : Wire) (hw : w.streamed = none) :
        (s.wire ++ [w]).filterMap Wire.streamed = s.wire.filterMap Wire.streamed := by
      simp [hw]
    exact .quiet rfl rfl { quiet_self s with sync := by simp [hpc], wire := hwire _ rfl }
  | await hpc | receive hpc | resend hpc =>
    exact .quiet rfl rfl ((quiet_exchange s _ _).move (by simp [hpc]) nofun)
  | finalSet hpc =>
    obtain ⟨state, h⟩ := s.setState_frame _ .running
    rw [h]
    exact .quiet rfl rfl { quiet_self s with sync := by simp [hpc] }
  | tick hpc hpc' =>
    refine .quiet rfl rfl { quiet_self s with sync := ?_ }
    obtain ⟨rfl, -⟩ | ⟨rfl, -⟩ := hpc'
    · simp [hpc]
    · simp [hpc]
  | load hpc | leave hpc | refuse hpc | next hpc | rest hpc | unexpected hpc | finalLoad hpc
  | finalRun hpc =>
    exact .quiet rfl rfl { quiet_self s with sync := by simp [hpc] }

theorem MutelemetryStreamer.DiscardStep.moves (hs : s.DiscardStep s') : Moves s .discard s' := by
  cases hs with
  | asleep hpc => exact .quiet rfl (by simp [removed, hpc]) (quiet_self s)
  | start hpc hd =>
    refine .quiet rfl (by simp [removed, hpc]) { quiet_self s with discard := ?_ }
    intro hd'
    cases hd.symm.trans hd'
  | more hpc | stop hpc =>
    refine .quiet rfl (by simp [removed, hpc]) { quiet_self s with discard := ?_ }
    rintro - (hw | hx)
    · cases hpc.symm.trans hw
    · cases hpc.symm.trans hx
  | dequeue hpc hq => exact .discard hpc hq (by simp [removed, hpc, hq])

theorem MutelemetryStreamer.MainStep.moves (hs : s.MainStep s') : Moves s .main s' := by
  cases hs with
  | notRunning hpc => exact .quiet rfl (by simp [removed, hpc]) (quiet_self s)
  | dequeue hpc hq => exact .dequeue hpc hq (by simp [removed, hpc, hq])
  | skip hpc => exact .skip hpc (by simp [removed, hpc])
  | send hpc => exact .send hpc (by simp [removed, hpc])
  | enter hpc | load hpc | loadLost hpc | done hpc | more hpc =>
    exact .quiet rfl (by simp [removed, hpc]) { quiet_self s with held := by rw [hpc]; rfl }

theorem streamed_replies (h : Replies ws) : ws.filterMap Wire.streamed = [] := by
  rw [List.filterMap_eq_nil_iff]
  intro w hw
  obtain ⟨_, _, _, rfl⟩ := h w hw
  rfl

theorem MutelemetryStreamer.CommandStep.quiet (hs : s.CommandStep i s') : Quiet s s' := by
  cases hs with
  | compare _ _ hv => cases hv <;> exact { quiet_self s with }
  | refuse _ _ hws => exact { quiet_self s with wire := by simp [streamed_replies hws] }
  | exchange _ _ _ hws =>
    exact { quiet_exchange s _ _ with wire := by simp [streamed_replies hws] }

theorem MutelemetryStreamer.AckStep.quiet (hs : s.AckStep i s') : Quiet s s' := by
  cases hs with
  | agrees | differs => exact { quiet_self s with }
  | exchange => exact { quiet_exchange s _ _ with }

theorem moves_of_step (hs : s.step e = some s') : Moves s e s' := by
  cases e with
  | enqueue dp =>
    cases hs
    exact .enqueue
  | sync => exact (syncLoop_step hs).moves
  | discard => exact (discardLoop_step hs).moves
  | main => exact (mainLoop_step hs).moves
  | command command sa confirmation =>
    cases hs
    obtain ⟨-, he⟩ | ⟨-, he⟩ := s.protoCommandHandler_cases command sa confirmation
    · rw [he]
      exact .quiet rfl rfl (quiet_self s)
    · rw [he]
      exact .quiet rfl rfl { quiet_self s with }
  | commandStep i => exact .quiet rfl rfl (commandStep_step hs).quiet
  | loggingAck sa sequence =>
    cases hs
    obtain ⟨-, he⟩ | ⟨-, he⟩ := s.protoLoggingAckHandler_cases sa sequence
    · rw [he]
      exact .quiet rfl rfl { quiet_self s with }
    · rw [he]
      exact .quiet rfl rfl (quiet_self s)
  | ackStep i => exact .quiet rfl rfl (ackStep_step hs).quiet

-- ---------------------------------------------------------------------------
-- The invariants
-- ---------------------------------------------------------------------------

/-- Where the messages are that were ever enqueued. -/
structure Enqueued (fed gone : List Bytes) (s : MutelemetryStreamer) : Prop where
  all : fed = s.definitions ++ (gone ++ s.dataQueue)
  definitions : ∀ dp ∈ s.definitions, checkUlogDataBegin dp = false
  collecting : s.sync = .collect →
    gone = [] ∧ s.discarding = false ∧ (s.discard = .waiting ∨ s.discard = .exited)
  begun : s.sync ≠ .collect →
    ∃ dp rest, gone ++ s.dataQueue = dp :: rest ∧ checkUlogDataBegin dp = true

/-- What became of the messages removed, in order: `true` for one that was sent.
Those behind the one `main_loop` holds were discarded. -/
structure Ledger (gone : List Bytes) (s : MutelemetryStreamer) (before after : List (Bytes × Bool)) :
    Prop where
  all : gone = before.map Prod.fst ++ (s.main.held ++ after.map Prod.fst)
  discarded : ∀ entry ∈ after, entry.2 = false
  wire : s.wire.filterMap Wire.streamed = (before.filter (·.2)).map Prod.fst
  sendCntr : s.sendCntr = (before ++ after).countP (·.2)
  skipCntr : s.skipCntr = (before ++ after).countP (!·.2)

theorem Ledger.quiet (h : Ledger gone s before after) (hq : Quiet s s') :
    Ledger gone s' before after where
  all := hq.held ▸ h.all
  discarded := h.discarded
  wire := hq.wire.trans h.wire
  sendCntr := hq.sendCntr.trans h.sendCntr
  skipCntr := hq.skipCntr.trans h.skipCntr

theorem Ledger.close (h : Ledger gone s before after) (hm : s.main.held = []) :
    Ledger gone s (before ++ after) [] where
  all := by simp [h.all, hm]
  discarded := by simp
  wire := by
    have hnone : after.filter (·.2) = [] := by simpa using h.discarded
    rw [List.filter_append, hnone, List.append_nil]
    exact h.wire
  sendCntr := by simpa using h.sendCntr
  skipCntr := by simpa using h.skipCntr

-- ---------------------------------------------------------------------------
-- Steps
-- ---------------------------------------------------------------------------

theorem Enqueued.take (h : Enqueued fed gone s) (hr : out = [dp]) (hq : s.dataQueue = dp :: rest)
    (hc : s.sync ≠ .collect) (hd : s'.definitions = s.definitions) (hq' : s'.dataQueue = rest)
    (hc' : s'.sync = s.sync) : Enqueued (fed ++ []) (gone ++ out) s' := by
  rw [List.append_nil, hr]
  have hsplit : gone ++ [dp] ++ s'.dataQueue = gone ++ s.dataQueue := by simp [hq, hq']
  refine ⟨?_, ?_, fun hc'' => absurd (hc'.symm.trans hc'') hc, fun _ => ?_⟩
  · rw [hd, hsplit]
    exact h.all
  · rw [hd]
    exact h.definitions
  · rw [hsplit]
    exact h.begun hc

theorem Enqueued.step (h : Enqueued fed gone s) (hp : Phase s) (hm : Moves s e s') :
    Enqueued (fed ++ e.enqueued.toList) (gone ++ s.removed e) s' := by
  cases hm with
  | quiet he hr hq =>
    rw [he, hr, Option.toList_none, List.append_nil, List.append_nil]
    refine ⟨?_, ?_, ?_, ?_⟩
    · rw [hq.definitions, hq.dataQueue]
      exact h.all
    · rw [hq.definitions]
      exact h.definitions
    · intro hc
      obtain ⟨hgone, hd, hdisc⟩ := h.collecting (hq.sync.mp hc)
      exact ⟨hgone, hq.discarding.trans hd, by rwa [hq.discard hd hdisc]⟩
    · intro hc
      rw [hq.dataQueue]
      exact h.begun fun hc' => hc (hq.sync.mpr hc')
  | @enqueue dp =>
    rw [removed_enqueue, List.append_nil]
    refine ⟨?_, h.definitions, h.collecting, fun hc => ?_⟩
    · simp [h.all, Event.enqueued]
    · obtain ⟨first, rest, hq, hb⟩ := h.begun hc
      exact ⟨first, rest ++ [dp], by simp [← List.append_assoc, hq], hb⟩
  | @collect dp rest hpc hq hb =>
    rw [removed_sync, List.append_nil]
    refine ⟨?_, fun d hd => ?_, h.collecting, fun hc => absurd hpc hc⟩
    · simp [h.all, hq, Event.enqueued, (h.collecting hpc).1]
    · obtain hd | hd := List.mem_append.mp hd
      · exact h.definitions d hd
      · rwa [List.mem_singleton.mp hd]
  | @begin dp rest hpc hq hb =>
    rw [removed_sync, List.append_nil]
    refine ⟨?_, h.definitions, nofun, fun _ => ⟨dp, rest, ?_, hb⟩⟩
    · simp [h.all, Event.enqueued]
    · simp [(h.collecting hpc).1, hq]
  | @discard dp rest hpc hq hr =>
    have hc : s.sync ≠ .collect := by
      intro hc
      obtain ⟨-, -, hd | hd⟩ := h.collecting hc
      · cases hpc.symm.trans hd
      · cases hpc.symm.trans hd
    exact h.take (by simpa using hr) hq hc rfl rfl rfl
  | @dequeue st dp rest hpc hq hr =>
    have hc : s.sync ≠ .collect := by
      rw [hp.running (hp.main (by simp [hpc]))]
      nofun
    exact h.take (by simpa using hr) hq hc rfl rfl rfl
  | skip _ hr | send _ hr =>
    have hfed : fed ++ Event.main.enqueued.toList = fed := List.append_nil fed
    rw [hfed, hr, List.append_nil]
    exact ⟨h.all, h.definitions, h.collecting, h.begun⟩

theorem Ledger.step (h : Ledger gone s before after) (hm : Moves s e s') :
    ∃ before' after', Ledger (gone ++ s.removed e) s' before' after' := by
  cases hm with
  | quiet _ hr hq =>
    rw [hr, List.append_nil]
    exact ⟨before, after, h.quiet hq⟩
  | enqueue | collect | begin =>
    refine ⟨before, after, ?_, h.discarded, h.wire, h.sendCntr, h.skipCntr⟩
    simpa using h.all
  | @discard dp rest _ _ hr =>
    refine ⟨before, after ++ [(dp, false)], ?_, ?_, h.wire, ?_, ?_⟩
    · simp [hr, h.all]
    · intro entry he
      obtain he | he := List.mem_append.mp he
      · exact h.discarded entry he
      · rw [List.mem_singleton.mp he]
    · simp [h.sendCntr, List.countP_append]
    · simp [h.skipCntr, List.countP_append, Nat.add_assoc]
  | @dequeue st dp rest hpc _ hr =>
    have hheld : s.main.held = [] := by
      rw [hpc]
      rfl
    have hc := h.close hheld
    refine ⟨before ++ after, [], ?_, hc.discarded, hc.wire, hc.sendCntr, hc.skipCntr⟩
    rw [hr, hc.all, hheld]
    simp [MainPc.held]
  | @skip st dp hpc hr =>
    refine ⟨before ++ [(dp, false)], after, ?_, h.discarded, ?_, ?_, ?_⟩
    · simp [hr, h.all, hpc, MainPc.held]
    · simp [h.wire]
    · simp [h.sendCntr, List.countP_append]
    · simp only [h.skipCntr, List.countP_append, List.countP_singleton]
      simp
      omega
  | @send st dp hpc hr =>
    refine ⟨before ++ [(dp, true)], after, ?_, h.discarded, ?_, ?_, ?_⟩
    · simp [hr, h.all, hpc, MainPc.held]
    · simp [h.wire, Wire.streamed]
    · simp only [h.sendCntr, List.countP_append, List.countP_singleton]
      simp
      omega
    · simp [h.skipCntr, List.countP_append]

-- ---------------------------------------------------------------------------
-- Runs
-- ---------------------------------------------------------------------------

def enqueued (es : List Event) : List Bytes := es.filterMap Event.enqueued

structure Accounted (rt : Bool) (es : List Event) (s : MutelemetryStreamer) : Prop where
  run : Transition.run step (.new rt) es = some s
  phase : Phase s
  enqueued : Enqueued (enqueued es) ((MutelemetryStreamer.new rt).removals es) s
  ledger : ∃ before after, Ledger ((MutelemetryStreamer.new rt).removals es) s before after

theorem accounted_new (rt : Bool) : Accounted rt [] (.new rt) where
  run := rfl
  phase := phase_new rt
  enqueued := by
    refine ⟨rfl, by simp [MutelemetryStreamer.new], fun _ => ⟨rfl, rfl, ?_⟩, fun hc => absurd rfl hc⟩
    cases rt with
    | true => exact .inl rfl
    | false => exact .inr rfl
  ledger := ⟨[], [], rfl, by simp, rfl, rfl, rfl⟩

theorem Accounted.step (h : Accounted rt es s) (hs : s.step e = some s') :
    Accounted rt (es ++ [e]) s' := by
  have hm := moves_of_step hs
  have hgone : (MutelemetryStreamer.new rt).removals (es ++ [e]) =
      (MutelemetryStreamer.new rt).removals es ++ s.removed e := Transition.trace_concat h.run e
  refine ⟨Transition.run_concat.mpr ⟨s, h.run, hs⟩, h.phase.step hs, ?_, ?_⟩
  · have hfed : Network.enqueued (es ++ [e]) = Network.enqueued es ++ e.enqueued.toList := by
      cases he : e.enqueued <;> simp [Network.enqueued, he]
    rw [hgone, hfed]
    exact h.enqueued.step h.phase hm
  · rw [hgone]
    obtain ⟨before, after, hl⟩ := h.ledger
    exact hl.step hm

theorem accounted_of_run (h : Transition.run step (.new rt) es = some s) : Accounted rt es s := by
  have hrun := Transition.run_history (Accounted rt) (fun ha hs => ha.step hs) h (accounted_new rt)
  rwa [List.nil_append] at hrun

/-- The definitions are what stands before the first A message, as far as
`sync_loop` has come. -/
theorem Enqueued.prefix_definitions (h : Enqueued fed gone s) :
    s.definitions <+: fed.takeWhile (!checkUlogDataBegin ·) := by
  rw [h.all, List.takeWhile_append_of_pos (by simpa using h.definitions)]
  exact List.prefix_append _ _

theorem Enqueued.definitions_eq (h : Enqueued fed gone s) (hc : s.sync ≠ .collect) :
    s.definitions = fed.takeWhile (!checkUlogDataBegin ·) := by
  obtain ⟨dp, rest, hq, hb⟩ := h.begun hc
  rw [h.all, List.takeWhile_append_of_pos (by simpa using h.definitions), hq,
    List.takeWhile_cons_of_neg (by simp [hb]), List.append_nil]

/-- Where `main_loop` holds no message, every message ever enqueued is in one
place, and every message removed was sent or skipped. -/
theorem streamer_accounts (h : Transition.run step (.new rt) es = some s) (hm : s.main.held = []) :
    enqueued es = s.definitions ++ ((MutelemetryStreamer.new rt).removals es ++ s.dataQueue) ∧
    s.definitions <+: (enqueued es).takeWhile (!checkUlogDataBegin ·) ∧
    (s.sync ≠ .collect → s.definitions = (enqueued es).takeWhile (!checkUlogDataBegin ·)) ∧
    (∃ fates : List (Bytes × Bool),
      (MutelemetryStreamer.new rt).removals es = fates.map Prod.fst ∧
      s.wire.filterMap Wire.streamed = (fates.filter (·.2)).map Prod.fst ∧
      s.sendCntr = fates.countP (·.2) ∧ s.skipCntr = fates.countP (!·.2)) ∧
    s.sendCntr + s.skipCntr = ((MutelemetryStreamer.new rt).removals es).length := by
  have ha := accounted_of_run h
  obtain ⟨before, after, hl⟩ := ha.ledger
  have hc := hl.close hm
  have hall := hc.all
  rw [hm, List.map_nil, List.append_nil, List.append_nil] at hall
  have hsend := hl.sendCntr
  have hskip := hl.skipCntr
  refine ⟨ha.enqueued.all, ha.enqueued.prefix_definitions, ha.enqueued.definitions_eq,
    ⟨before ++ after, hall, hc.wire, hsend, hskip⟩, ?_⟩
  rw [hall, List.length_map, hsend, hskip]
  simpa using (List.length_eq_countP_add_countP (·.2) (l := before ++ after)).symm

def oneSent : List Event :=
  oneDefinition ++ [.sync, .sync, .main, .main, .main, .main, .main]

theorem streamer_accounts_oneSent : ∃ s, Transition.run step (.new false) oneSent = some s ∧
    enqueued oneSent = s.definitions ++ ((MutelemetryStreamer.new false).removals oneSent ++
      s.dataQueue) ∧ s.definitions = [fileHeader 0] ∧ s.sendCntr = 1 :=
  ⟨_, rfl, (streamer_accounts rfl (by rfl)).1, rfl, rfl⟩

/-- While `sync_loop` collects, it may be behind the first A message. -/
theorem definitions_behind : ¬ ∀ rt es s, Transition.run step (.new rt) es = some s →
    s.main.held = [] → s.definitions = (enqueued es).takeWhile (!checkUlogDataBegin ·) := by
  intro h
  have hbad := h false [.enqueue (fileHeader 0), .enqueue [2, 0, 65, 0, 0]] _ rfl (by rfl)
  revert hbad
  decide

end Mutelemetry.Network
