import Mutelemetry.Process.Session
import Mutelemetry.Stream.Arrivals

/-!
# The voice of a process

What the messages of a process say depends on the identifiers in them. They go
with the types in the order in which `store_data` meets them, in the calls that
it refuses too.
-/

namespace Mutelemetry

open ByteString Ulog Telemetry Parse Mutelemetry.Stream

namespace Telemetry.MuTelemetry

theorem call_false_msgIds {t t' : MuTelemetry} (ht : t.isEnabled = true)
    (h : (t.call c).run true = .ok (false, t') e) (hids : t.MsgIds ns) :
    ∃ ns', t'.MsgIds ns' ∧ ns <+: ns' ∧ ∀ n ∈ ns', n ∈ ns ∨ n ∈ storedTypes [c] := by
  have hsame (heq : t'.msgId = t.msgId) :
      ∃ ns', t'.MsgIds ns' ∧ ns <+: ns' ∧ ∀ n ∈ ns', n ∈ ns ∨ n ∈ storedTypes [c] := by
    refine ⟨ns, ?_, List.prefix_rfl, fun n hn => .inl hn⟩
    rw [MsgIds, heq]
    exact hids
  cases c with
  | registerParamInt | registerParamFloat | registerInfo | registerInfoMulti =>
    exact hsame (by rw [run_registerKeyed_false ht (by simp) h])
  | registerDataFormat typeName fields =>
    rw [call, run_registerDataFormat ht] at h
    split at h
    · split at h
      · cases h
      · cases h
    · cases h
  | storeData data typeName annotation timestamp =>
    by_cases hname : nameLen typeName ≤ 255
    · rw [call, run_storeDataIntl ht data typeName annotation timestamp hname] at h
      split at h
      · cases h
        refine ⟨enter ns typeName, (hids.identify rfl).2, prefix_enter _ _, fun n hn => ?_⟩
        obtain hn | rfl := mem_enter.mp hn
        · exact .inl hn
        · exact .inr List.mem_cons_self
      · split at h
        · cases h
        · cases h
    · rw [call, run_storeDataIntl_of_lt ht data typeName annotation timestamp (by omega)] at h
      cases h
  | storeMessage message level timestamp =>
    rw [call, run_storeMessage ht] at h
    split at h
    · cases h
    · cases h
      exact hsame rfl

end Telemetry.MuTelemetry

namespace Process

def named : Event → List Bytes
  | .call c => storedTypes [c]
  | _ => []

/-- The queue has the header, the flags and the messages of the calls, in which
the types, all of them `made`, have their identifiers. -/
def Voiced (made : List Bytes) (cs : List Call) (t : MuTelemetry) : Prop :=
  ∃ names ms, (∀ n ∈ names, n ∈ made) ∧ t.MsgIds names ∧ List.Forall₂ (Spoken names) cs ms ∧
    t.netQueue = if t.withNetwork then preamble t ++ ms else []

theorem voiced_new : Voiced [] [] new.telemetry :=
  ⟨[], [], by simp, ranked_new rfl, .nil, rfl⟩

section
variable {t t' : MuTelemetry} {p p' : Process}

theorem Voiced.mono (h : Voiced made cs t) (hmore : ∀ n ∈ made, n ∈ made') : Voiced made' cs t := by
  obtain ⟨names, ms, hmade, hrest⟩ := h
  exact ⟨names, ms, fun n hn => hmore n (hmade n hn), hrest⟩

theorem Voiced.enqueue (h : Voiced made cs t) (hm : MuTelemetry.Enqueues t c m t') :
    Voiced (made ++ storedTypes [c]) (cs ++ [c]) (t'.toIo m) := by
  obtain ⟨names, ms, hmade, hids, hms, hq⟩ := h
  have hids' : t'.MsgIds (entered names (storedTypes [c])) := hids.enqueues hm
  refine ⟨entered names (storedTypes [c]), ms ++ [m], fun n hn => ?_, hids', ?_, ?_⟩
  · exact List.mem_append.mpr ((mem_entered.mp hn).imp_left (hmade n))
  · have hold : List.Forall₂ (Spoken (entered names (storedTypes [c]))) cs ms :=
      hms.imp fun _ _ hs => hs.mono (prefix_entered _ _)
    exact List.rel_append hold (.cons ⟨t, t', names, hm, hids, List.prefix_rfl⟩ .nil)
  · have halike := hm.alike
    obtain ⟨-, hnet⟩ := toIo_queues t' m
    have hqueue : t'.netQueue = t.netQueue := by rw [halike]
    have hwn : t'.withNetwork = t.withNetwork := by rw [halike]
    have hpre : preamble t' = preamble t := by rw [halike]; rfl
    show (t'.toIo m).netQueue = if t'.withNetwork then preamble t' ++ (ms ++ [m]) else []
    rw [hnet, hqueue, hq, hwn, hpre]
    split <;> simp

theorem Voiced.refuse (h : Voiced made cs t) (ht : t.isEnabled = true)
    (hc : (t.call c).run true = .ok (false, t') e) :
    Voiced (made ++ storedTypes [c]) cs t' := by
  obtain ⟨names, ms, hmade, hids, hms, hq⟩ := h
  obtain ⟨names', hids', hpre, hnew⟩ := MuTelemetry.call_false_msgIds ht hc hids
  have halike := MuTelemetry.call_false ht hc
  refine ⟨names', ms, fun n hn => ?_, hids', hms.imp fun _ _ hs => hs.mono hpre, ?_⟩
  · exact List.mem_append.mpr ((hnew n hn).imp_left (hmade n))
  · rw [halike]
    exact hq

theorem Voiced.call (h : Voiced made cs p.telemetry) (hc : p.call c = some p') :
    Voiced (made ++ named (.call c)) (cs ++ p.answered (.call c)) p'.telemetry := by
  simp only [Process.call] at hc
  simp only [answered, named]
  cases hon : p.telemetry.isEnabled with
  | false =>
    simp only [MuTelemetry.call_disabled hon, Option.some_inj, publish_self] at hc ⊢
    subst hc
    rw [if_neg (by simp), List.append_nil]
    exact h.mono fun n hn => List.mem_append_left _ hn
  | true =>
    cases hr : (p.telemetry.call c).run true with
    | error => simp [hr] at hc
    | ok a e =>
      obtain ⟨r, t⟩ := a
      simp only [hr, Option.some_inj] at hc ⊢
      subst hc
      cases r with
      | true =>
        obtain ⟨m, t₁, hm, rfl⟩ :=
          MuTelemetry.accept_enqueues hon (MuTelemetry.accept_eq_some.mpr ⟨e, hr⟩)
        exact h.enqueue hm
      | false =>
        rw [List.append_nil]
        exact h.refuse hon hr

theorem readConfig_msgId (p : Process) (cfg : Option MuConfig) :
    (p.readConfig cfg).2.telemetry.msgId = p.telemetry.msgId := by
  unfold readConfig
  split
  · rfl
  · dsimp only
    split
    · split <;> rfl
    · rfl

theorem createHeaderAndFlags_msgId (t : MuTelemetry) :
    t.createHeaderAndFlags.msgId = t.msgId := by
  unfold MuTelemetry.createHeaderAndFlags
  split <;> rfl

theorem startStreamer_msgId (p : Process) (rt : Bool) :
    (p.startStreamer rt).telemetry.msgId = p.telemetry.msgId := by
  unfold startStreamer
  split
  · split <;> rfl
  · rfl

theorem init_msgId (h : p.init s = some (r, p')) :
    p'.telemetry.msgId = p.telemetry.msgId := by
  simp only [Process.init] at h
  split at h
  · cases h
    rfl
  · split at h
    · simp only [Option.some_inj, Prod.mk.injEq] at h
      obtain ⟨-, rfl⟩ := h
      show MuTelemetry.msgId (MuTelemetry.createHeaderAndFlags _) = _
      rw [createHeaderAndFlags_msgId]
      split
      · obtain ⟨log, htelemetry, -⟩ := ((readConfig { p with telemetry :=
          { p.telemetry with startTimestamp := s.now } } s.cfg).2.startStreamer s.rt).startLogger_frame
            s.isoTime s.opens
        rw [htelemetry]
        exact (startStreamer_msgId _ _).trans (readConfig_msgId _ _)
      · exact readConfig_msgId _ _
    · cases h

theorem Voiced.init (h : Voiced made cs p.telemetry) (hstage : Stage cs p)
    (hnow : s.now ≠ 0) (hi : p.init s = some (r, p')) : Voiced made cs p'.telemetry := by
  obtain ⟨rfl, rfl⟩ | hp := hstage
  · obtain ⟨ms, hms, -, hq⟩ := (started_init hi hnow).messages
    cases hms
    refine ⟨[], [], by simp, ?_, .nil, hq⟩
    rw [MuTelemetry.MsgIds, init_msgId hi]
    exact ranked_new rfl
  · rw [hp.init hi]
    exact h

theorem streamerStep_frame (hs : p.streamerStep e = some p') :
    p'.telemetry = p.telemetry := by
  cases e with
  | enqueue => cases hs
  | sync | discard | main | command | commandStep | loggingAck | ackStep =>
    obtain ⟨s, -, hs⟩ := Option.bind_eq_some_iff.mp hs
    obtain ⟨s', -, rfl⟩ := Option.map_eq_some_iff.mp hs
    rfl

theorem Voiced.step (h : Voiced made cs p.telemetry) (hstage : Stage cs p)
    (hnow : ∀ s, e = .init s → s.now ≠ 0) (hs : p.step e = some p') :
    Voiced (made ++ named e) (cs ++ p.answered e) p'.telemetry := by
  cases e with
  | call c => exact h.call hs
  | init s =>
    obtain ⟨⟨r, p₁⟩, hi, rfl⟩ := Option.map_eq_some_iff.mp hs
    simpa [named, answered] using h.init hstage (hnow s rfl) hi
  | logger e =>
    obtain ⟨l, rfl⟩ := Session.loggerStep_frame hs
    simpa [named, answered] using h
  | streamer e =>
    rw [streamerStep_frame hs]
    simpa [named, answered] using h

end

end Process

end Mutelemetry
