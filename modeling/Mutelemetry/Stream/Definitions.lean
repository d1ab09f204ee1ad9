import Mutelemetry.Network.Accounting
import Mutelemetry.Network.Handshake
import Mutelemetry.Telemetry.Calls

/-!
# Definitions that can be streamed

The writer's structs hold up to 1512 bytes, a LOGGING_DATA_ACKED message 249.
Which calls of the writer give the streamer a definition it can send.
-/

namespace Mutelemetry.Stream

open ByteString Ulog Telemetry Network

/-- The messages the streamer is given: these, and no other before the first A
message. -/
def Fed (ms : List Bytes) (es : List Event) : Prop :=
  ∃ rest, (∀ m ∈ rest.head?, checkUlogDataBegin m = true) ∧ enqueued es <+: ms ++ rest

theorem Fed.subset (h : Fed ms es) (hs : Accounted rt es s) : s.definitions ⊆ ms := by
  obtain ⟨rest, hrest, hpre⟩ := h
  have hdefs : s.definitions <+: ms ++ rest :=
    (hs.enqueued.prefix_definitions.trans (List.takeWhile_prefix _)).trans hpre
  obtain hle | ⟨more, hmore⟩ := List.prefix_or_prefix_of_prefix hdefs (List.prefix_append ms rest)
  · exact hle.subset
  · rw [← hmore, List.prefix_append_right_inj] at hdefs
    cases more with
    | nil => simp [← hmore]
    | cons m more =>
      -- a definition behind these messages would be the A message
      obtain ⟨tail, rfl⟩ := hdefs
      have hm := hs.enqueued.definitions m (by simp [← hmore])
      rw [hrest m rfl] at hm
      cases hm

-- ---------------------------------------------------------------------------
-- The streamer
-- ---------------------------------------------------------------------------

variable {s : MutelemetryStreamer}

theorem run_collect (hs : s.sync = .collect) (hq : s.dataQueue = ms)
    (hb : ∀ m ∈ ms, checkUlogDataBegin m = false) :
    Transition.run MutelemetryStreamer.step s (List.replicate ms.length .sync) =
      some { s with dataQueue := [], definitions := s.definitions ++ ms } := by
  induction ms generalizing s with
  | nil => rw [List.length_nil, List.replicate_zero, Transition.run_nil, List.append_nil, ← hq]
  | cons m ms ih =>
    have hstep : s.step .sync =
        some { s with dataQueue := ms, definitions := s.definitions ++ [m] } := by
      simp [MutelemetryStreamer.step, MutelemetryStreamer.syncLoop, hs, hq, hb m]
    have hrest := ih (s := { s with dataQueue := ms, definitions := s.definitions ++ [m] }) hs rfl
      fun d hd => hb d (List.mem_cons_of_mem _ hd)
    rw [List.append_assoc] at hrest
    exact Transition.run_cons.mpr ⟨_, hstep, hrest⟩

/-- A queue without an A message becomes the definitions. -/
theorem collects (rt : Bool) (hb : ∀ m ∈ ms, checkUlogDataBegin m = false) :
    ∃ es s, Transition.run MutelemetryStreamer.step (.new rt) es = some s ∧ Fed ms es ∧
      s.definitions = ms := by
  refine ⟨ms.map .enqueue ++ List.replicate ms.length .sync, _, Transition.run_append.mpr
    ⟨_, (MutelemetryStreamer.new rt).run_enqueue ms, run_collect rfl rfl hb⟩, ⟨[], by simp, ?_⟩, rfl⟩
  have hnone : ∀ n, (List.replicate n Event.sync).filterMap Event.enqueued = [] := by
    intro n
    rw [List.filterMap_replicate_of_none rfl]
  have hall : (ms.map Event.enqueue).filterMap Event.enqueued = ms := by
    rw [List.filterMap_map]
    exact List.filterMap_some
  have hfed : enqueued (ms.map .enqueue ++ List.replicate ms.length .sync) = ms := by
    rw [enqueued, List.filterMap_append, hnone, hall, List.append_nil]
  exact ⟨[], by rw [hfed]⟩

theorem not_definitionSent (h : Transition.run MutelemetryStreamer.step (.new rt) es = some s)
    (hs : ∀ dp ∈ s.definitions, dp.length ≤ MutelemetryStreamer.fieldDataLen) :
    .definitionSent ∉ s.failed := by
  refine Transition.run_invariant (fun m => (∀ dp ∈ m.definitions,
    dp.length ≤ MutelemetryStreamer.fieldDataLen) → .definitionSent ∉ m.failed) ?_ h (fun _ => ?_) hs
  · intro m e m' hm hstep hdefs hf
    have hsub := (prefix_definitions hstep).subset
    obtain hf | hf := MutelemetryStreamer.failed_step hstep hf
    · exact hm (fun dp hdp => hdefs dp (hsub hdp)) hf
    · cases hf with
      | definitionSent hdp hlong =>
        have := hdefs _ (hsub hdp)
        omega
  · simp [MutelemetryStreamer.new]

-- ---------------------------------------------------------------------------
-- Both
-- ---------------------------------------------------------------------------

theorem emits_lengths (h : MuTelemetry.Emits t cs ms t') :
    ms.map List.length = cs.map Call.messageLength := by
  induction h with
  | nil => rfl
  | cons hm _ ih => rw [List.map_cons, List.map_cons, hm.length, ih]

theorem emits_not_dataBegin (h : MuTelemetry.Emits t cs ms t') (hcs : ∀ c ∈ cs, c.isData = false) :
    ∀ m ∈ ms, checkUlogDataBegin m = false := by
  induction h with
  | nil => simp
  | cons hm _ ih =>
    rw [List.forall_mem_cons] at hcs ⊢
    exact ⟨hm.not_dataBegin hcs.1, ih hcs.2⟩

theorem headerAndFlags (timestamp : UInt64) :
    ∀ m ∈ [fileHeader timestamp, frame .B (MuTelemetry.zeros 40)],
      checkUlogDataBegin m = false ∧ m.length ≤ MutelemetryStreamer.fieldDataLen := by
  have hheader : checkUlogDataBegin (fileHeader timestamp) = false := rfl
  have hflags : checkUlogDataBegin (frame .B (MuTelemetry.zeros 40)) = false := rfl
  simp only [List.forall_mem_cons, hheader, hflags, length_frame, MuTelemetry.length_zeros]
  simp [fileHeader, magic, MutelemetryStreamer.fieldDataLen]

/-- For the calls before the first `store_data`, each of which returned true:
the streamer can send all that `sync_loop` collects, whatever its run, if and
only if no message of a call is longer than a LOGGING_DATA_ACKED message. -/
theorem definitions_sendable_iff (hcs : ∀ c ∈ cs, c.isData = false)
    (hrun : Transition.run MuTelemetry.accept
      (MuTelemetry.new true withLocalLog timestamp).createHeaderAndFlags cs = some t) :
    (∀ rt es s, Transition.run MutelemetryStreamer.step (.new rt) es = some s → Fed t.netQueue es →
      (∀ dp ∈ s.definitions, dp.length ≤ MutelemetryStreamer.fieldDataLen) ∧
        .definitionSent ∉ s.failed) ↔
    ∀ c ∈ cs, c.messageLength ≤ MutelemetryStreamer.fieldDataLen := by
  obtain ⟨ms, hms, hq⟩ := MuTelemetry.emits_of_run rfl hrun
  rw [MuTelemetry.netQueue_createHeaderAndFlags] at hq
  have hlengths : (∀ c ∈ cs, c.messageLength ≤ MutelemetryStreamer.fieldDataLen) ↔
      ∀ m ∈ ms, m.length ≤ MutelemetryStreamer.fieldDataLen := by
    rw [← List.forall_mem_map (f := Call.messageLength) (P := (· ≤ _)), ← emits_lengths hms,
      List.forall_mem_map]
  rw [hlengths]
  constructor
  · intro h m hm
    have hb : ∀ m ∈ t.netQueue, checkUlogDataBegin m = false := by
      rw [hq, List.forall_mem_append]
      exact ⟨fun m hm => (headerAndFlags timestamp m hm).1, emits_not_dataBegin hms hcs⟩
    obtain ⟨es, s, hs, hfed, hdefs⟩ := collects false hb
    exact (h false es s hs hfed).1 m (by rw [hdefs, hq]; exact List.mem_append_right _ hm)
  · intro h rt es s hs hfed
    have hshort : ∀ dp ∈ s.definitions, dp.length ≤ MutelemetryStreamer.fieldDataLen := by
      intro dp hdp
      have hmem := hfed.subset (accounted_of_run hs) hdp
      rw [hq] at hmem
      obtain hfirst | hmem := List.mem_append.mp hmem
      · exact (headerAndFlags timestamp dp hfirst).2
      · exact h dp hmem
    exact ⟨hshort, not_definitionSent hs hshort⟩

def shortCalls : List Call :=
  [.registerInfo (ascii "sys_name") (ascii "mu"), .registerDataFormat (ascii "T") (ascii "int8_t a;")]

theorem definitions_sendable_iff_short : ∃ t, Transition.run MuTelemetry.accept
      (MuTelemetry.new true false 0).createHeaderAndFlags shortCalls = some t ∧
    ∀ rt es s, Transition.run MutelemetryStreamer.step (.new rt) es = some s → Fed t.netQueue es →
      (∀ dp ∈ s.definitions, dp.length ≤ MutelemetryStreamer.fieldDataLen) ∧
        .definitionSent ∉ s.failed := by
  have hrun : (Transition.run MuTelemetry.accept
      (MuTelemetry.new true false 0).createHeaderAndFlags shortCalls).isSome = true := by
    decide +kernel
  obtain ⟨t, ht⟩ := Option.isSome_iff_exists.mp hrun
  exact ⟨t, ht, (definitions_sendable_iff (by decide +kernel) ht).mpr
    (by decide +kernel)⟩

/-- An information that the writer accepts and the streamer cannot send. -/
def longInfo : List Call := [.registerInfo (ascii "k") (List.replicate 240 120)]

theorem longInfo_unsendable : ¬ ∀ cs t, (∀ c ∈ cs, c.isData = false) →
    Transition.run MuTelemetry.accept (MuTelemetry.new true false 0).createHeaderAndFlags cs = some t →
    ∀ rt es s, Transition.run MutelemetryStreamer.step (.new rt) es = some s → Fed t.netQueue es →
      ∀ dp ∈ s.definitions, dp.length ≤ MutelemetryStreamer.fieldDataLen := by
  intro h
  have hrun : (Transition.run MuTelemetry.accept
      (MuTelemetry.new true false 0).createHeaderAndFlags longInfo).map
      (·.netQueue.map fun m => (m.length, checkUlogDataBegin m)) =
      some [(16, false), (43, false), (255, false)] := by decide +kernel
  obtain ⟨t, ht, hq⟩ := Option.map_eq_some_iff.mp hrun
  have hb : ∀ m ∈ t.netQueue, checkUlogDataBegin m = false := by
    intro m hm
    have hmem := List.mem_map_of_mem (f := fun m => (m.length, checkUlogDataBegin m)) hm
    rw [hq] at hmem
    simp only [List.mem_cons, Prod.mk.injEq, List.not_mem_nil, or_false] at hmem
    obtain ⟨-, hm⟩ | ⟨-, hm⟩ | ⟨-, hm⟩ := hmem
    all_goals exact hm
  obtain ⟨es, s, hs, hfed, hdefs⟩ := collects false hb
  obtain ⟨m, hm, hlen⟩ : ∃ m ∈ t.netQueue, (m.length, checkUlogDataBegin m) = (255, false) :=
    List.mem_map.mp (by rw [hq]; simp)
  have hbad := h longInfo t (by decide +kernel) ht false es s hs hfed m (hdefs ▸ hm)
  simp only [Prod.mk.injEq] at hlen
  rw [hlen.1] at hbad
  exact absurd hbad (by decide)

end Mutelemetry.Stream
