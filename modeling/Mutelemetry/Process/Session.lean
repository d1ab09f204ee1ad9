import Mathlib.Data.List.Perm.Subperm
import Mutelemetry.Network.Completion
import Mutelemetry.Process.Runs

/-!
# A session with the client

The process, the network and the reference client together: what is called is
enqueued, streamed, lost or delivered, and parsed. The streamer's side of a
session is a run of the process, the network's side a run of the streamer joined
to its client; the queue is where they meet.
-/

namespace Mutelemetry

open ByteString Ulog Telemetry Network

structure Session where
  process : Process
  client : MutelemetryClient

namespace Session

def new (address : SparseAddress) : Session := ⟨.new, ⟨address, [], [], [], []⟩⟩

inductive Event
  /-- `init`, a public call or a step of the logger. -/
  | process (e : Process.Event)
  /-- A step of the streamer, of the network or of the client. -/
  | network (e : System.Event)

def network (s : Session) (e : System.Event) : Option Session :=
  s.process.streamer.bind fun t => (System.step ⟨t, s.client⟩ e).map fun n =>
    { process := { s.process with streamer := some n.streamer }, client := n.client }

def step (s : Session) : Event → Option Session
  | .process (.streamer _) | .network (.streamer (.enqueue _)) => none
  | .process e => (s.process.step e).map fun p => { s with process := p }
  | .network e => s.network e

def answered (s : Session) : Event → List Call
  | .process e => s.process.answered e
  | .network _ => []

-- ---------------------------------------------------------------------------
-- The streamer of a process
-- ---------------------------------------------------------------------------

section
variable {p p' : Process}

/-- `init` makes the streamer, and the calls feed it. -/
inductive Feeds (p p' : Process) : Prop
  | start : p.streamer = none →
    p'.streamer = some { MutelemetryStreamer.new rt with dataQueue := ns } → Feeds p p'
  | feed : p'.streamer = p.streamer.map (fun t => { t with dataQueue := t.dataQueue ++ ns }) →
    Feeds p p'

theorem feeds_start (rt : Bool) (hp : p.streamer = none)
    (h : p'.streamer = some { MutelemetryStreamer.new rt with dataQueue := ns }) : Feeds p p' :=
  .start hp h

theorem feeds_self (h : p'.streamer = p.streamer) : Feeds p p' := by
  have hfeed : p'.streamer =
      p.streamer.map fun t => { t with dataQueue := t.dataQueue ++ ([] : List Bytes) } := by
    cases hs : p.streamer <;> simp [h, hs]
  exact .feed hfeed

theorem feeds_publish (p : Process) (t : MuTelemetry) : Feeds p (p.publish t) := .feed rfl

theorem readConfig_streamer (p : Process) (cfg : Option MuConfig) :
    (p.readConfig cfg).2.streamer = p.streamer := by
  unfold Process.readConfig
  split
  · rfl
  · dsimp only
    split
    · split <;> rfl
    · rfl

theorem streamer_start (hp : p.streamer = none) (rt : Bool) (isoTime : Bytes) (opens : Bool) :
    ((p.startStreamer rt).startLogger isoTime opens).streamer = none ∨
    ((p.startStreamer rt).startLogger isoTime opens).streamer = some (.new rt) := by
  obtain ⟨_, -, hsame⟩ := (p.startStreamer rt).startLogger_frame isoTime opens
  rw [hsame]
  unfold Process.startStreamer
  split
  · rw [hp]
    exact .inr rfl
  · exact .inl hp

theorem feeds_init (h : Process.new.init s = some (r, p)) : Feeds .new p := by
  simp only [Process.init] at h
  rw [if_neg (by simp [Process.new, MuTelemetry.new])] at h
  split at h
  · generalize hq : Process.readConfig _ s.cfg = q at h
    have hstreamer : q.2.streamer = none := by
      rw [← hq, readConfig_streamer]
      rfl
    simp only [Option.some_inj, Prod.mk.injEq] at h
    obtain ⟨-, rfl⟩ := h
    split
    · obtain hnone | hsome := streamer_start hstreamer s.rt s.isoTime s.opens
      · exact feeds_self (by simp [Process.publish, hnone, Process.new])
      · exact feeds_start s.rt rfl (by simp only [Process.publish, hsome]; rfl)
    · exact feeds_self (by simp [Process.publish, hstreamer, Process.new])
  · cases h

theorem loggerStep_frame (hs : p.loggerStep e = some p') : ∃ l, p' = { p with logger := l } := by
  have hmap : ∃ l, p.logger.step e = some l ∧ { p with logger := l } = p' := by
    cases e with
    | enqueue | init | start => cases hs
    | call | step | stop | release | releaseOnError => exact Option.map_eq_some_iff.mp hs
  obtain ⟨l, -, rfl⟩ := hmap
  exact ⟨l, rfl⟩

theorem feeds_of_step (h : Process.Stage cs p) (he : ∀ e', e ≠ .streamer e')
    (hs : p.step e = some p') : Feeds p p' := by
  cases e with
  | init s =>
    obtain ⟨⟨r, p₁⟩, hi, rfl⟩ := Option.map_eq_some_iff.mp hs
    obtain ⟨rfl, -⟩ | hp := h
    · exact feeds_init hi
    · exact feeds_self (by rw [hp.init hi])
  | call c =>
    simp only [Process.step, Process.call] at hs
    split at hs
    · cases hs
      exact feeds_publish p _
    · cases hs
  | logger e =>
    obtain ⟨l, rfl⟩ := loggerStep_frame hs
    exact feeds_self rfl
  | streamer e => exact absurd rfl (he e)

theorem streamerStep_eq (ht : p.streamer = some t) (he : e.enqueued = none)
    (hs : t.step e = some t') : p.streamerStep e = some { p with streamer := some t' } := by
  cases e with
  | enqueue => cases he
  | sync | discard | main | command | commandStep | loggingAck | ackStep =>
    simp [Process.streamerStep, ht, hs]

-- ---------------------------------------------------------------------------
-- The network
-- ---------------------------------------------------------------------------

variable {n n' : System}

theorem run_feed (n : System) (ns : List Bytes) :
    Transition.run System.step n (ns.map fun m => .streamer (.enqueue m)) =
      some { n with streamer :=
        { n.streamer with dataQueue := n.streamer.dataQueue ++ ns } } := by
  induction ns generalizing n with
  | nil => simp
  | cons m ns ih =>
    refine Transition.run_cons.mpr ⟨_, rfl, ?_⟩
    rw [ih]
    simp

/-- What the network does to the streamer is a step of its own that enqueues
nothing. -/
theorem network_cases (hn : n.step e = some n') (he : ∀ m, e ≠ .streamer (.enqueue m)) :
    n'.streamer = n.streamer ∨
    ∃ e', e'.enqueued = none ∧ n.streamer.step e' = some n'.streamer := by
  cases e with
  | streamer e =>
    obtain ⟨-, t, ht, rfl⟩ := System.step_streamer hn
    refine .inr ⟨e, ?_, ht⟩
    cases e with
    | enqueue m => exact absurd rfl (he m)
    | sync | discard | main | command | commandStep | loggingAck | ackStep => rfl
  | deliver i =>
    obtain ⟨w, -, rfl⟩ := Option.map_eq_some_iff.mp hn
    exact .inl rfl
  | ack i =>
    rw [System.step] at hn
    split at hn
    · obtain ⟨j, -, rfl⟩ := Option.map_eq_some_iff.mp hn
      exact .inr ⟨.loggingAck n.client.address j, rfl, rfl⟩
    · cases hn

theorem data_sent (h : Transition.Reachable System.step (System.new rt address) n) :
    ∀ d ∈ n.client.data, d ∈ n.streamer.wire.filterMap Wire.streamed := by
  refine h.invariant
    (fun n => ∀ d ∈ n.client.data, d ∈ n.streamer.wire.filterMap Wire.streamed) ?_ (by simp [System.new])
  intro n e n' hdata hs d hd
  obtain ⟨e', hs', hc⟩ | ⟨w, hw, rfl⟩ := System.step_cases hs
  · obtain ⟨ws, hws⟩ := wire_of_step hs'
    rw [hc] at hd
    rw [hws, List.filterMap_append]
    exact List.mem_append_left _ (hdata d hd)
  · cases w with
    | commandAck => exact hdata d hd
    | loggingDataAcked =>
      refine hdata d ?_
      rw [MutelemetryClient.receive] at hd
      split at hd <;> exact hd
    | loggingData ts tc data =>
      obtain hd | hd := List.mem_append.mp hd
      · exact hdata d hd
      · cases List.mem_singleton.mp hd
        exact List.mem_filterMap.mpr ⟨_, hw, rfl⟩

end

-- ---------------------------------------------------------------------------
-- Runs
-- ---------------------------------------------------------------------------

/-- A session, with the calls that were answered: its process, and its streamer
joined to its client. -/
structure Joined (address : SparseAddress) (cs : List Call) (s : Session) : Prop where
  stage : Process.Stage cs s.process
  fresh : s.process.streamer = none → s.client = ⟨address, [], [], [], []⟩
  reached : ∀ t, s.process.streamer = some t →
    ∃ rt, Transition.Reachable System.step (System.new rt address) ⟨t, s.client⟩

theorem joined_new (address : SparseAddress) : Joined address [] (new address) where
  stage := .inl ⟨rfl, rfl⟩
  fresh := fun _ => rfl
  reached := fun t ht => by cases ht

section
variable {s s' : Session}

theorem step_cases (hs : s.step e = some s') :
    (∃ e' p, e = .process e' ∧ (∀ e'', e' ≠ .streamer e'') ∧ s.process.step e' = some p ∧
      s' = { s with process := p }) ∨
    ∃ e' t n, e = .network e' ∧ (∀ m, e' ≠ .streamer (.enqueue m)) ∧
      s.process.streamer = some t ∧ System.step ⟨t, s.client⟩ e' = some n ∧
      s' = { process := { s.process with streamer := some n.streamer }, client := n.client } := by
  cases e with
  | process e =>
    left
    cases e with
    | streamer e => cases hs
    | init | call | logger =>
      obtain ⟨p, hp, rfl⟩ := Option.map_eq_some_iff.mp hs
      exact ⟨_, p, rfl, by simp, hp, rfl⟩
  | network e =>
    right
    have hnetwork : (∀ m, e ≠ .streamer (.enqueue m)) ∧ s.network e = some s' := by
      cases e with
      | streamer e =>
        cases e with
        | enqueue => cases hs
        | sync | discard | main | command | commandStep | loggingAck | ackStep =>
          exact ⟨by simp, hs⟩
      | deliver | ack => exact ⟨by simp, hs⟩
    obtain ⟨t, ht, hmap⟩ := Option.bind_eq_some_iff.mp hnetwork.2
    obtain ⟨n, hn, rfl⟩ := Option.map_eq_some_iff.mp hmap
    exact ⟨e, t, n, rfl, hnetwork.1, ht, hn, rfl⟩

theorem Joined.process (h : Joined address cs s) (he : ∀ e', e ≠ .streamer e')
    (hnow : ∀ s, e = .init s → s.now ≠ 0) (hs : s.process.step e = some p) :
    Joined address (cs ++ s.process.answered e) { s with process := p } := by
  have hstage := h.stage.step hnow hs
  cases feeds_of_step h.stage he hs with
  | @start rt ns hnone hp =>
    refine ⟨hstage, fun hno => absurd (hp.symm.trans hno) (by simp), fun t ht => ⟨rt, ?_⟩⟩
    obtain rfl := Option.some.inj (hp.symm.trans ht)
    refine ⟨_, (run_feed (System.new rt address) ns).trans ?_⟩
    rw [h.fresh hnone]
    rfl
  | @feed ns hp =>
    refine ⟨hstage, fun hno => h.fresh ?_, fun t ht => ?_⟩
    · exact Option.map_eq_none_iff.mp (hp.symm.trans hno)
    · obtain ⟨t₀, ht₀, rfl⟩ := Option.map_eq_some_iff.mp (hp.symm.trans ht)
      obtain ⟨rt, es, hes⟩ := h.reached t₀ ht₀
      exact ⟨rt, _, Transition.run_append.mpr ⟨_, hes, run_feed _ ns⟩⟩

theorem Joined.network {n : System} (h : Joined address cs s)
    (he : ∀ m, e ≠ .streamer (.enqueue m)) (ht : s.process.streamer = some t)
    (hn : System.step ⟨t, s.client⟩ e = some n) : Joined address cs
      { process := { s.process with streamer := some n.streamer }, client := n.client } := by
  obtain ⟨rt, es, hes⟩ := h.reached t ht
  refine ⟨?_, fun hno => absurd hno (by simp), fun t' ht' => ⟨rt, es ++ [e], ?_⟩⟩
  · obtain hsame | ⟨e', henq, hstep⟩ := network_cases hn he
    · have hself : { s.process with streamer := some n.streamer } = s.process := by
        rw [hsame, ← ht]
      exact hself ▸ h.stage
    · have hstage := h.stage.step (e := .streamer e') (fun _ hi => by cases hi)
        (streamerStep_eq ht henq hstep)
      simpa [Process.answered] using hstage
  · cases ht'
    exact Transition.run_concat.mpr ⟨_, hes, hn⟩

theorem Joined.step (h : Joined address cs s) (hnow : ∀ s, e = .process (.init s) → s.now ≠ 0)
    (hs : s.step e = some s') : Joined address (cs ++ s.answered e) s' := by
  obtain ⟨e', p, rfl, he, hp, rfl⟩ | ⟨e', t, n, rfl, he, ht, hn, rfl⟩ := step_cases hs
  · exact h.process he (fun i hi => hnow i (by rw [hi])) hp
  · rw [answered, List.append_nil]
    exact h.network he ht hn

def calls (address : SparseAddress) (es : List Event) : List Call :=
  Transition.trace step answered (new address) es

def ClockRuns (es : List Event) : Prop := ∀ s, .process (.init s) ∈ es → s.now ≠ 0

def Composed (address : SparseAddress) (past : List Event) (s : Session) : Prop :=
  Transition.run Session.step (new address) past = some s ∧ Joined address (calls address past) s

theorem composed_new (address : SparseAddress) : Composed address [] (new address) :=
  ⟨rfl, joined_new address⟩

theorem Composed.step (h : Composed address past s)
    (hnow : ∀ s, e = .process (.init s) → s.now ≠ 0) (hs : s.step e = some s') :
    Composed address (past ++ [e]) s' := by
  obtain ⟨hpast, hj⟩ := h
  refine ⟨Transition.run_concat.mpr ⟨s, hpast, hs⟩, ?_⟩
  rw [calls, Transition.trace_concat hpast]
  exact hj.step hnow hs

theorem joined_of_run (hclock : ClockRuns es)
    (h : Transition.run Session.step (new address) es = some s) :
    Joined address (calls address es) s := by
  have hrun : Transition.Guarded Session.step (fun _ e => ∀ s, e = .process (.init s) → s.now ≠ 0)
      (new address) es s :=
    Transition.Guarded.of_run h fun e he _ s hs => hclock s (hs ▸ he)
  have hc := hrun.history (Composed address) (fun hc hnow hs => hc.step hnow hs)
    (composed_new address)
  rw [List.nil_append] at hc
  exact hc.2

/-- Where the messages ever enqueued are: the definitions are those before the
first record, and of those behind some are sent. -/
theorem streamed_sublist (h : Transition.run MutelemetryStreamer.step (.new rt) es = some t) :
    t.definitions <+: (enqueued es).takeWhile (!checkUlogDataBegin ·) ∧
    (t.sync ≠ .collect → t.definitions = (enqueued es).takeWhile (!checkUlogDataBegin ·)) ∧
    (t.wire.filterMap Wire.streamed).Sublist
      ((enqueued es).dropWhile (!checkUlogDataBegin ·)) := by
  obtain ⟨-, -, henq, before, after, hledger⟩ := accounted_of_run h
  refine ⟨henq.prefix_definitions, henq.definitions_eq, ?_⟩
  have hgone : (t.wire.filterMap Wire.streamed).Sublist
      ((MutelemetryStreamer.new rt).removals es) := by
    rw [hledger.wire, hledger.all]
    exact (List.filter_sublist.map _).trans (List.sublist_append_left _ _)
  by_cases hc : t.sync = .collect
  · rw [(henq.collecting hc).1] at hgone
    exact hgone.trans (List.nil_sublist _)
  · refine hgone.trans ?_
    obtain ⟨dp, rest, hq, hb⟩ := henq.begun hc
    rw [henq.all, List.dropWhile_append_of_pos (by simpa using henq.definitions), hq,
      List.dropWhile_cons_of_neg (by simp [hb]), ← hq]
    exact List.sublist_append_left _ _

/-- The client gets what is enqueued: a beginning of what stands before the first
record, all of it before any data, and as data some of what stands behind. -/
theorem Joined.delivers (hj : Joined address cs s) (hp : s.process.Started cs)
    (hnet : s.process.telemetry.withNetwork = true)
    (hfits : ∀ t, s.process.streamer = some t → t.definitions.length ≤ 65536) :
    ∃ t, s.process.streamer = some t ∧
      s.client.definitions <+:
        s.process.telemetry.netQueue.takeWhile (!checkUlogDataBegin ·) ∧
      (s.client.data ≠ [] → s.client.definitions =
        s.process.telemetry.netQueue.takeWhile (!checkUlogDataBegin ·)) ∧
      (t.wire.filterMap Wire.streamed).Sublist
        (s.process.telemetry.netQueue.dropWhile (!checkUlogDataBegin ·)) ∧
      ∀ d ∈ s.client.data, d ∈ t.wire.filterMap Wire.streamed := by
  obtain ⟨rt, ns, t, ht, hrun, henq⟩ := hp.streamer hnet
  obtain ⟨rt', hreached⟩ := hj.reached t ht
  have hsynced := System.synced_of_reachable hreached (hfits t ht)
  have hdata := data_sent hreached
  obtain ⟨hfirst, hdefs, hsublist⟩ := streamed_sublist hrun
  rw [henq] at hfirst hdefs hsublist
  refine ⟨t, ht, hsynced.delivered.received.trans hfirst, fun hne => ?_, hsublist, hdata⟩
  -- data is sent by a streamer that runs
  obtain ⟨d, hd⟩ := List.exists_mem_of_ne_nil _ hne
  obtain ⟨w, hw, hwd⟩ := List.mem_filterMap.mp (hdata d hd)
  have hrunning : t.running = true := by
    cases w with
    | loggingData ts tc data => exact hsynced.turn.data ts tc data hw
    | loggingDataAcked | commandAck => cases hwd
  have hx : t.sync = .exited := hsynced.phase.running hrunning
  have hcollected : t.sync ≠ .collect := by simp [hx]
  have hopen := System.open_of_reachable hreached (hfits t ht) hcollected
  exact (hopen.parsed_all hrunning).trans (hdefs hcollected)

/-- Whatever the network does, the client of a process that streams gets the
header, the flags and the messages of the calls before the first record, in the
order of the calls, each once; and when it gets data it has them all. What is
posted behind them is some of the messages from the first record on, none more
often than it was enqueued, and the client gets nothing else. -/
theorem session_delivers (hclock : ClockRuns es)
    (h : Transition.run Session.step (new address) es = some s)
    (hnet : s.process.telemetry.withNetwork = true)
    (hfits : ∀ t, s.process.streamer = some t → t.definitions.length ≤ 65536) :
    ∃ t ms, s.process.streamer = some t ∧ Process.Answers (calls address es) ms ∧
      s.client.definitions <+:
        (Process.preamble s.process.telemetry ++ ms).takeWhile (!checkUlogDataBegin ·) ∧
      (s.client.data ≠ [] → s.client.definitions =
        (Process.preamble s.process.telemetry ++ ms).takeWhile (!checkUlogDataBegin ·)) ∧
      (t.wire.filterMap Wire.streamed).Subperm
        ((Process.preamble s.process.telemetry ++ ms).dropWhile (!checkUlogDataBegin ·)) ∧
      ∀ d ∈ s.client.data, d ∈ t.wire.filterMap Wire.streamed := by
  have hj := joined_of_run hclock h
  obtain ⟨hnew, -⟩ | hp := hj.stage
  · rw [hnew] at hnet
    cases hnet
  obtain ⟨ms, hms, -, hqueue⟩ := hp.messages
  obtain ⟨t, ht, hfirst, hall, hsublist, hdata⟩ := hj.delivers hp hnet hfits
  rw [hqueue, if_pos hnet] at hfirst hall hsublist
  exact ⟨t, ms, ht, hms, hfirst, hall, hsublist.subperm, hdata⟩

def exchanged (i : Nat) : List System.Event :=
  List.replicate 3 (.streamer .sync) ++ [.deliver i, .ack i, .streamer (.ackStep 0),
    .streamer (.ackStep 0)] ++ List.replicate 3 (.streamer .sync)

/-- Three definitions are exchanged; the client gets the record behind them, what
comes next, and the record once more. -/
def recordTwice : List System.Event :=
  List.replicate 4 (.streamer .sync) ++ [.streamer (.command .loggingStart ⟨1, 1⟩ false),
    .streamer (.commandStep 0), .streamer (.commandStep 0)] ++
  (exchanged 0 ++ exchanged 1 ++ exchanged 2) ++ List.replicate 4 (.streamer .sync) ++
  List.replicate 9 (.streamer .main) ++ [.deliver 3, .deliver 4, .deliver 3]

def recordDelivered : List Event :=
  [.process (.init ⟨true, false, 7, some ⟨true, some true, none, none⟩, [], true⟩),
    .process (.call (.registerParamInt (ascii "int32_t gain") 5)),
    .process (.call (.storeData (List.replicate 8 0 ++ [5]) (ascii "T") [] 7)),
    .process (.call (.storeMessage (ascii "ready") .info 8))] ++ recordTwice.map .network

theorem clockRuns_recordDelivered : ClockRuns recordDelivered := by
  intro s hs
  simp only [recordDelivered, List.mem_append, List.mem_cons, List.mem_map, Event.process.injEq,
    Process.Event.init.injEq, reduceCtorEq, List.not_mem_nil, and_false, exists_false,
    or_false] at hs
  subst hs
  decide

theorem session_delivers_record : ∃ s t ms,
    Transition.run Session.step (new ⟨1, 1⟩) recordDelivered = some s ∧
    s.client.data.length = 3 ∧ s.process.streamer = some t ∧
    Process.Answers (calls ⟨1, 1⟩ recordDelivered) ms ∧
    s.client.definitions =
      (Process.preamble s.process.telemetry ++ ms).takeWhile (!checkUlogDataBegin ·) ∧
    (t.wire.filterMap Wire.streamed).Subperm
      ((Process.preamble s.process.telemetry ++ ms).dropWhile (!checkUlogDataBegin ·)) ∧
    ∀ d ∈ s.client.data, d ∈ t.wire.filterMap Wire.streamed := by
  have hrun : (Transition.run Session.step (new ⟨1, 1⟩) recordDelivered).map (fun s =>
      (s.process.telemetry.withNetwork, s.client.data.length,
        s.process.streamer.map fun t => t.definitions.length)) = some (true, 3, some 3) := by
    decide +kernel
  obtain ⟨s, hs, hfacts⟩ := Option.map_eq_some_iff.mp hrun
  simp only [Prod.mk.injEq] at hfacts
  obtain ⟨hnet, hthree, hlen⟩ := hfacts
  have hfits : ∀ t, s.process.streamer = some t → t.definitions.length ≤ 65536 := by
    intro t ht
    rw [ht, Option.map_some, Option.some_inj] at hlen
    omega
  have hne : s.client.data ≠ [] := by
    rw [← List.length_pos_iff, hthree]
    exact Nat.zero_lt_succ 2
  obtain ⟨t, ms, ht, hms, -, hall, hposted, hdata⟩ :=
    session_delivers clockRuns_recordDelivered hs hnet hfits
  exact ⟨s, t, ms, hs, hthree, ht, hms, hall hne, hposted, hdata⟩

end

end Session

end Mutelemetry
