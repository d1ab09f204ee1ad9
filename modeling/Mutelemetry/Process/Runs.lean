import Mutelemetry.Logger.Journal
import Mutelemetry.Network.Accounting
import Mutelemetry.Process
import Mutelemetry.Telemetry.LogFile

/-!
# What a process consists of

Whatever the order of `init`, the public calls and the steps of the two
consumers: before its `init` a process does nothing, and from then on it is a
run of the logger and a run of the streamer that enqueue the same messages, the
header, the flags and one for each call.
-/

namespace Mutelemetry

open ByteString Ulog Telemetry

-- ---------------------------------------------------------------------------
-- A call
-- ---------------------------------------------------------------------------

namespace Telemetry.MuTelemetry

def Alike (t t' : MuTelemetry) : Prop := t' = { t with msgId := t'.msgId, multiId := t'.multiId }

theorem alike_identify {ids : UInt16 × UInt8 × MuTelemetry}
    (h : t.identify typeName annotation = ids) : Alike t ids.2.2 := by
  cases h
  rfl

theorem Enqueues.alike (h : Enqueues t c m t') : Alike t t' := by
  cases h with
  | data _ _ _ hid => exact alike_identify hid
  | paramInt | paramFloat | info | infoMulti | dataFormat | message => rfl

theorem run_registerKeyed_false {t : MuTelemetry} {flags value : Bytes} (ht : t.isEnabled = true)
    (hflags : flags.length ≤ 1)
    (h : (t.registerKeyed type flags text value).run e = .ok (false, t') e') : t' = t := by
  rw [run_registerKeyed ht hflags] at h
  split at h
  · cases h
  · cases h
    rfl

theorem call_false (ht : t.isEnabled = true) (h : (t.call c).run true = .ok (false, t') e) :
    Alike t t' := by
  cases c with
  | registerParamInt | registerParamFloat | registerInfo | registerInfoMulti =>
    rw [run_registerKeyed_false ht (by simp) h]
    rfl
  | registerDataFormat typeName fields =>
    rw [call, run_registerDataFormat ht] at h
    split at h
    · split at h
      · cases h
      · cases h
    · cases h
  | storeData data typeName annotation timestamp =>
    by_cases hname : nameLen typeName ≤ 255
    · rw [call, run_storeDataIntl ht data typeName annotation timestamp hname] at h
      split at h
      · cases h
        exact alike_identify rfl
      · split at h
        · cases h
        · cases h
    · rw [call, run_storeDataIntl_of_lt ht data typeName annotation timestamp (by omega)] at h
      cases h
  | storeMessage message level timestamp =>
    rw [call, run_storeMessage ht] at h
    split at h
    · cases h
    · cases h
      rfl

theorem call_disabled {t : MuTelemetry} (ht : t.isEnabled = false) (c : Call) :
    (t.call c).run true = .ok (true, t) true := by
  cases c <;> simp [call, registerParamInt, registerParamFloat, registerInfo, registerInfoMulti,
    registerKeyed, registerDataFormat, storeDataIntl, storeMessage, ht]

end Telemetry.MuTelemetry

-- ---------------------------------------------------------------------------
-- The invariant
-- ---------------------------------------------------------------------------

namespace Process

def Answers (cs : List Call) (ms : List Bytes) : Prop :=
  List.Forall₂ (fun c m => ∃ t t', MuTelemetry.Enqueues t c m t') cs ms

def preamble (t : MuTelemetry) : List Bytes :=
  [fileHeader t.startTimestamp, frame .B (MuTelemetry.zeros 40)]

/-- The consumers that are enabled have seen their queues and nothing else. -/
structure Wired (p : Process) : Prop where
  logger : p.telemetry.withLocalLog = true → ∃ es, (∀ e ∈ es, Logger.MutelemetryLogger.InSession e) ∧
    Transition.run Logger.MutelemetryLogger.step Logger.MutelemetryLogger.session es =
      some p.logger ∧
    es.flatMap Logger.MutelemetryLogger.arrivals = p.telemetry.logQueue
  streamer : p.telemetry.withNetwork = true → ∃ rt es s, p.streamer = some s ∧
    Transition.run Network.MutelemetryStreamer.step (.new rt) es = some s ∧
    Network.enqueued es = p.telemetry.netQueue

/-- A process whose `init` is behind it, and the calls it has answered. -/
structure Started (cs : List Call) (p : Process) : Prop extends Wired p where
  clock : p.telemetry.startTimestamp ≠ 0
  messages : ∃ ms, Answers cs ms ∧
    p.telemetry.logQueue = (if p.telemetry.withLocalLog then preamble p.telemetry ++ ms else []) ∧
    p.telemetry.netQueue = (if p.telemetry.withNetwork then preamble p.telemetry ++ ms else [])

theorem run_enqueues (l : Logger.MutelemetryLogger) (ms : List Bytes) :
    Transition.run Logger.MutelemetryLogger.step l (ms.map .enqueue) =
      some { l with queue := l.queue ++ ms } := by
  induction ms generalizing l with
  | nil => simp
  | cons m ms ih =>
    refine Transition.run_cons.mpr ⟨_, rfl, ?_⟩
    rw [ih]
    simp

theorem Wired.publish (h : Wired p) (hlog : t.logQueue = p.telemetry.logQueue ++ ms)
    (hnet : t.netQueue = p.telemetry.netQueue ++ ns)
    (hl : t.withLocalLog = p.telemetry.withLocalLog)
    (hn : t.withNetwork = p.telemetry.withNetwork) : Wired (p.publish t) where
  logger hw := by
    obtain ⟨es, hes, hrun, harr⟩ := h.logger (hl ▸ hw)
    refine ⟨es ++ ms.map .enqueue, ?_, Transition.run_append.mpr ⟨_, hrun, ?_⟩, ?_⟩
    · intro e he
      obtain he | he := List.mem_append.mp he
      · exact hes e he
      · obtain ⟨m, -, rfl⟩ := List.mem_map.mp he
        trivial
    · rw [run_enqueues]
      simp [Process.publish, hlog]
    · simp [Process.publish, hlog, harr, List.flatMap_map, Logger.MutelemetryLogger.arrivals]
  streamer hw := by
    obtain ⟨rt, es, s, hs, hrun, henq⟩ := h.streamer (hn ▸ hw)
    refine ⟨rt, es ++ ns.map .enqueue, { s with dataQueue := s.dataQueue ++ ns }, ?_,
      Transition.run_append.mpr ⟨_, hrun, s.run_enqueue ns⟩, ?_⟩
    · simp [Process.publish, hnet, hs]
    · simp [Process.publish, hnet, Network.enqueued, List.filterMap_map, Function.comp_def,
        Network.Event.enqueued, ← henq]

-- ---------------------------------------------------------------------------
-- Steps
-- ---------------------------------------------------------------------------

variable {p p' : Process}

theorem startLogger_new (hp : p.logger = .new)
    (h : (p.startLogger isoTime opens).telemetry.withLocalLog = true) :
    (p.startLogger isoTime opens).logger = Logger.MutelemetryLogger.session := by
  unfold startLogger at h ⊢
  split at h
  · rename_i hon
    cases opens with
    | true =>
      rw [if_pos hon, hp]
      rfl
    | false => simp [Logger.MutelemetryLogger.initResult] at h
  · rename_i hoff
    exact absurd h hoff

theorem startLogger_frame (p : Process) (isoTime : Bytes) (opens : Bool) : ∃ log,
    (p.startLogger isoTime opens).telemetry = { p.telemetry with withLocalLog := log } ∧
    (p.startLogger isoTime opens).streamer = p.streamer := by
  unfold startLogger
  split
  · exact ⟨_, rfl, rfl⟩
  · exact ⟨p.telemetry.withLocalLog, rfl, rfl⟩

theorem startStreamer_none (rt : Bool) (hp : p.streamer = none) :
    (p.startStreamer rt).telemetry = p.telemetry ∧ (p.startStreamer rt).logger = p.logger ∧
    (p.telemetry.withNetwork = true → (p.startStreamer rt).streamer = some (.new rt)) := by
  unfold startStreamer
  split
  · rw [hp]
    exact ⟨rfl, rfl, fun _ => rfl⟩
  · rename_i hoff
    exact ⟨rfl, rfl, fun hon => absurd hon hoff⟩

theorem wired_start (hlogger : p.logger = .new) (hstreamer : p.streamer = none)
    (hlog : p.telemetry.logQueue = []) (hnet : p.telemetry.netQueue = []) :
    Wired ((p.startStreamer rt).startLogger isoTime opens) := by
  obtain ⟨htelemetry, hold, hstart⟩ := startStreamer_none rt hstreamer
  obtain ⟨log, hframe, hsame⟩ := (p.startStreamer rt).startLogger_frame isoTime opens
  constructor
  · intro h
    refine ⟨[], by simp, ?_, ?_⟩
    · rw [startLogger_new (hold.trans hlogger) h]
      rfl
    · rw [hframe, htelemetry]
      exact hlog.symm
  · intro h
    rw [hframe, htelemetry] at h
    refine ⟨rt, [], .new rt, hsame.trans (hstart h), rfl, ?_⟩
    rw [hframe, htelemetry]
    exact hnet.symm

theorem createHeaderAndFlags_queues (t : MuTelemetry) :
    t.createHeaderAndFlags.logQueue = t.logQueue ++ (if t.withLocalLog then preamble t else []) ∧
    t.createHeaderAndFlags.netQueue = t.netQueue ++ (if t.withNetwork then preamble t else []) ∧
    t.createHeaderAndFlags.withLocalLog = t.withLocalLog ∧
    t.createHeaderAndFlags.withNetwork = t.withNetwork ∧
    t.createHeaderAndFlags.startTimestamp = t.startTimestamp := by
  obtain ⟨net, log, timestamp, -, -, logQueue, netQueue⟩ := t
  cases net <;> cases log <;>
    simp [MuTelemetry.createHeaderAndFlags, MuTelemetry.isEnabled, MuTelemetry.toIo, preamble]

theorem Wired.started (h : Wired p) (hclock : p.telemetry.startTimestamp ≠ 0)
    (hlog : p.telemetry.logQueue = []) (hnet : p.telemetry.netQueue = []) :
    Started [] (p.publish p.telemetry.createHeaderAndFlags) := by
  obtain ⟨hl, hn, hwl, hwn, hts⟩ := createHeaderAndFlags_queues p.telemetry
  refine ⟨h.publish hl hn hwl hwn, ?_, [], .nil, ?_, ?_⟩
  · show p.telemetry.createHeaderAndFlags.startTimestamp ≠ 0
    rwa [hts]
  · show p.telemetry.createHeaderAndFlags.logQueue = _
    rw [hl, hlog]
    simp [Process.publish, hwl, preamble, hts]
  · show p.telemetry.createHeaderAndFlags.netQueue = _
    rw [hn, hnet]
    simp [Process.publish, hwn, preamble, hts]

theorem started_start (hlogger : p.logger = .new) (hstreamer : p.streamer = none)
    (hlog : p.telemetry.logQueue = []) (hnet : p.telemetry.netQueue = [])
    (hclock : p.telemetry.startTimestamp ≠ 0)
    (hq : q = (p.startStreamer rt).startLogger isoTime opens) :
    Started [] (q.publish q.telemetry.createHeaderAndFlags) := by
  subst hq
  obtain ⟨htelemetry, -, -⟩ := startStreamer_none rt hstreamer
  obtain ⟨log, hframe, -⟩ := (p.startStreamer rt).startLogger_frame isoTime opens
  refine (wired_start hlogger hstreamer hlog hnet).started ?_ ?_ ?_
  all_goals
    rw [hframe, htelemetry]
    assumption

theorem started_init (h : new.init s = some (r, p)) (hnow : s.now ≠ 0) : Started [] p := by
  simp only [init] at h
  rw [if_neg (by simp [new, MuTelemetry.new])] at h
  split at h
  · cases hc : s.cfg with
    | none =>
      simp only [hc, readConfig, Option.some_inj, Prod.mk.injEq] at h
      obtain ⟨-, rfl⟩ := h
      exact Wired.started ⟨nofun, nofun⟩ hnow rfl rfl
    | some cfg =>
      cases hok : cfg.isOk with
      | false =>
        simp only [hc, hok, readConfig, Option.some_inj, Prod.mk.injEq] at h
        obtain ⟨-, rfl⟩ := h
        exact Wired.started ⟨nofun, nofun⟩ hnow rfl rfl
      | true =>
        simp only [hc, hok, readConfig, Option.some_inj, Prod.mk.injEq, if_true] at h
        obtain ⟨-, rfl⟩ := h
        refine started_start ?_ ?_ ?_ ?_ ?_ rfl
        all_goals
          split
          all_goals first | rfl | exact hnow
  · cases h

/-- A second `init` is refused, and changes nothing. -/
theorem Started.init (h : Started cs p) (hi : p.init s = some (r, p')) : p' = p := by
  rw [Process.init, if_pos h.clock] at hi
  cases hi
  rfl

theorem Answers.append (h : Answers cs ms) (hm : MuTelemetry.Enqueues t c m t') :
    Answers (cs ++ [c]) (ms ++ [m]) :=
  List.rel_append h (.cons ⟨t, t', hm⟩ .nil)

theorem Started.alike (h : Started cs p) (ht : MuTelemetry.Alike p.telemetry t) :
    Started cs (p.publish t) := by
  obtain ⟨ms, hms, hl, hn⟩ := h.messages
  have hlog : t.logQueue = p.telemetry.logQueue ++ [] := by
    rw [ht, List.append_nil]
  have hnet : t.netQueue = p.telemetry.netQueue ++ [] := by
    rw [ht, List.append_nil]
  refine ⟨h.toWired.publish hlog hnet (by rw [ht]) (by rw [ht]), ?_, ms, hms, ?_, ?_⟩
  · show t.startTimestamp ≠ 0
    rw [ht]
    exact h.clock
  · show t.logQueue = if t.withLocalLog then preamble t ++ ms else []
    rw [ht]
    exact hl
  · show t.netQueue = if t.withNetwork then preamble t ++ ms else []
    rw [ht]
    exact hn

theorem toIo_queues (t : MuTelemetry) (m : Bytes) :
    (t.toIo m).logQueue = t.logQueue ++ (if t.withLocalLog then [m] else []) ∧
    (t.toIo m).netQueue = t.netQueue ++ (if t.withNetwork then [m] else []) := by
  obtain ⟨net, log, -, -, -, logQueue, netQueue⟩ := t
  cases net <;> cases log <;> simp [MuTelemetry.toIo]

theorem Started.enqueue (h : Started cs p) (hm : MuTelemetry.Enqueues p.telemetry c m t) :
    Started (cs ++ [c]) (p.publish (t.toIo m)) := by
  obtain ⟨ms, hms, hl, hn⟩ := h.messages
  have ht := hm.alike
  obtain ⟨hlog, hnet⟩ := toIo_queues t m
  have hlogQueue : t.logQueue = p.telemetry.logQueue := by rw [ht]
  have hnetQueue : t.netQueue = p.telemetry.netQueue := by rw [ht]
  have hwl : t.withLocalLog = p.telemetry.withLocalLog := by rw [ht]
  have hwn : t.withNetwork = p.telemetry.withNetwork := by rw [ht]
  have hpre : preamble t = preamble p.telemetry := by rw [ht]; rfl
  rw [hlogQueue] at hlog
  rw [hnetQueue] at hnet
  refine ⟨h.toWired.publish hlog hnet hwl hwn, ?_, ms ++ [m], hms.append hm, ?_, ?_⟩
  · show t.startTimestamp ≠ 0
    rw [ht]
    exact h.clock
  · show (t.toIo m).logQueue = if t.withLocalLog then preamble t ++ (ms ++ [m]) else []
    rw [hlog, hl, hwl, hpre]
    split <;> simp
  · show (t.toIo m).netQueue = if t.withNetwork then preamble t ++ (ms ++ [m]) else []
    rw [hnet, hn, hwn, hpre]
    split <;> simp

theorem publish_self (p : Process) : p.publish p.telemetry = p := by
  obtain ⟨telemetry, _, _, logger, streamer⟩ := p
  cases streamer <;> simp [publish]

theorem Started.call (h : Started cs p) (hc : p.call c = some p') :
    Started (cs ++ p.answered (.call c)) p' := by
  simp only [Process.call] at hc
  simp only [answered]
  cases hon : p.telemetry.isEnabled with
  | false =>
    simp only [MuTelemetry.call_disabled hon, Option.some_inj, publish_self] at hc ⊢
    subst hc
    simpa using h
  | true =>
    cases hr : (p.telemetry.call c).run true with
    | error => simp [hr] at hc
    | ok a e =>
      obtain ⟨r, t⟩ := a
      simp only [hr, Option.some_inj] at hc ⊢
      subst hc
      cases r with
      | true =>
        obtain ⟨m, t₁, hm, rfl⟩ :=
          MuTelemetry.accept_enqueues hon (MuTelemetry.accept_eq_some.mpr ⟨e, hr⟩)
        simpa using h.enqueue hm
      | false => simpa using h.alike (MuTelemetry.call_false hon hr)

theorem Started.loggerStep (h : Started cs p) (hs : p.loggerStep e = some p') : Started cs p' := by
  have hstep : Logger.MutelemetryLogger.InSession e ∧ Logger.MutelemetryLogger.arrivals e = [] ∧
      ∃ l, p.logger.step e = some l ∧ { p with logger := l } = p' := by
    cases e with
    | enqueue | init | start => cases hs
    | call | step | stop | release | releaseOnError =>
      exact ⟨trivial, rfl, Option.map_eq_some_iff.mp hs⟩
  obtain ⟨he, harr, l, hl, rfl⟩ := hstep
  refine ⟨⟨fun hw => ?_, h.streamer⟩, h.clock, h.messages⟩
  obtain ⟨es, hes, hrun, hall⟩ := h.logger hw
  refine ⟨es ++ [e], ?_, Transition.run_concat.mpr ⟨_, hrun, hl⟩, by simpa [harr] using hall⟩
  intro e' he'
  obtain he' | he' := List.mem_append.mp he'
  · exact hes e' he'
  · rwa [List.mem_singleton.mp he']

theorem Started.streamerStep (h : Started cs p) (hs : p.streamerStep e = some p') :
    Started cs p' := by
  have hstep : e.enqueued = none ∧
      ∃ s s', p.streamer = some s ∧ s.step e = some s' ∧ { p with streamer := some s' } = p' := by
    cases e with
    | enqueue => cases hs
    | sync | discard | main | command | commandStep | loggingAck | ackStep =>
      obtain ⟨s, hp, hs⟩ := Option.bind_eq_some_iff.mp hs
      obtain ⟨s', hs', rfl⟩ := Option.map_eq_some_iff.mp hs
      exact ⟨rfl, s, s', hp, hs', rfl⟩
  obtain ⟨henq, s, s', hp, hs', rfl⟩ := hstep
  refine ⟨⟨h.logger, fun hw => ?_⟩, h.clock, h.messages⟩
  obtain ⟨rt, es, t, ht, hrun, hall⟩ := h.streamer hw
  cases hp.symm.trans ht
  refine ⟨rt, es ++ [e], s', rfl, Transition.run_concat.mpr ⟨_, hrun, hs'⟩, ?_⟩
  simpa [Network.enqueued, henq] using hall

-- ---------------------------------------------------------------------------
-- Runs
-- ---------------------------------------------------------------------------

/-- The clock never reads the value that stands for no `init`. -/
def ClockRuns (es : List Event) : Prop := ∀ s, .init s ∈ es → s.now ≠ 0

theorem new_or_started (hs : step new e = some p) (hnow : ∀ s, e = .init s → s.now ≠ 0) :
    new.answered e = [] ∧ (p = new ∨ Started [] p) := by
  cases e with
  | init s =>
    obtain ⟨⟨r, p⟩, hi, rfl⟩ := Option.map_eq_some_iff.mp hs
    exact ⟨rfl, .inr (started_init hi (hnow s rfl))⟩
  | call c =>
    have hoff : new.telemetry.isEnabled = false := rfl
    simp only [step, Process.call, MuTelemetry.call_disabled hoff, Option.some_inj] at hs
    refine ⟨by simp [answered, MuTelemetry.call_disabled hoff, hoff], .inl ?_⟩
    rw [← hs, publish_self]
  | logger e =>
    refine ⟨rfl, .inl ?_⟩
    cases e with
    | enqueue | init | start | step => cases hs
    | call | stop | release | releaseOnError =>
      cases hs
      rfl
  | streamer e =>
    cases e with
    | enqueue | sync | discard | main | command | commandStep | loggingAck | ackStep => cases hs

def Stage (cs : List Call) (p : Process) : Prop := p = new ∧ cs = [] ∨ Started cs p

theorem Stage.step (h : Stage cs p) (hnow : ∀ s, e = .init s → s.now ≠ 0)
    (hs : p.step e = some p') : Stage (cs ++ p.answered e) p' := by
  obtain ⟨rfl, rfl⟩ | hp := h
  · obtain ⟨hans, rfl | hstart⟩ := new_or_started hs hnow
    · exact .inl ⟨rfl, by rw [hans, List.append_nil]⟩
    · exact .inr (by rw [hans]; exact hstart)
  · right
    cases e with
    | init s =>
      obtain ⟨⟨r, p₁⟩, hi, rfl⟩ := Option.map_eq_some_iff.mp hs
      rw [hp.init hi]
      simpa [answered] using hp
    | call c => exact hp.call hs
    | logger e => simpa [answered] using hp.loggerStep hs
    | streamer e => simpa [answered] using hp.streamerStep hs

def Composed (past : List Event) (p : Process) : Prop :=
  Transition.run step new past = some p ∧ Stage (Transition.trace step answered new past) p

theorem composed_new : Composed [] new := ⟨rfl, .inl ⟨rfl, rfl⟩⟩

theorem Composed.step (h : Composed past p) (hnow : ∀ s, e = .init s → s.now ≠ 0)
    (hs : p.step e = some p') : Composed (past ++ [e]) p' := by
  obtain ⟨hpast, hp⟩ := h
  refine ⟨Transition.run_concat.mpr ⟨p, hpast, hs⟩, ?_⟩
  rw [Transition.trace_concat hpast]
  exact hp.step hnow hs

theorem composed_of_run (hclock : ClockRuns es) (h : Transition.run step new es = some p) :
    Composed es p := by
  have hrun : Transition.Guarded step (fun _ e => ∀ s, e = .init s → s.now ≠ 0) new es p :=
    Transition.Guarded.of_run h fun e he _ s hs => hclock s (hs ▸ he)
  have hc := hrun.history Composed (fun hc hnow hs => hc.step hnow hs) composed_new
  rwa [List.nil_append] at hc

/-- Before its `init` a process is as it was made; from then on its logger and
its streamer are runs of their own, whose queues have had the header, the flags
and the message of each call that was answered, in the order of the calls. -/
theorem process_composes (hclock : ClockRuns es) (h : Transition.run step new es = some p) :
    p = new ∨ Started (Transition.trace step answered new es) p :=
  (composed_of_run hclock h).2.imp_left And.left

def parameterLogged : List Event :=
  [.init ⟨true, true, 7, some ⟨true, some true, some true, none⟩, [], true⟩,
    .call (.registerParamInt (ascii "int32_t gain") 5), .streamer .sync, .logger .stop,
    .logger (.release ⟨0, true, true, none⟩)]

theorem clockRuns_parameterLogged : ClockRuns parameterLogged := by
  intro s hs
  simp only [parameterLogged, List.mem_cons, Event.init.injEq, reduceCtorEq, List.not_mem_nil,
    or_false] at hs
  subst hs
  decide

set_option maxRecDepth 4000 in
theorem process_composes_parameter : ∃ p, Transition.run step new parameterLogged = some p ∧
    (p = new ∨ Started (Transition.trace step answered new parameterLogged) p) :=
  ⟨_, rfl, process_composes clockRuns_parameterLogged rfl⟩

end Process

end Mutelemetry
