import Mutelemetry.Process.Voices

/-!
# What the client reads

A session from the public calls to the tables of the client's parser. The
handlers of the client give each buffer to `check_ulog_valid` as it comes, a
definition only when its number is new.
-/

namespace Mutelemetry

open ByteString Ulog Telemetry Parse Network Mutelemetry.Stream

namespace Network

theorem Synced.complete {s : MutelemetryStreamer} (h : Synced s c)
    (hm : .loggingData ts tc d ∈ s.wire) : c.definitions = s.definitions := by
  have hx := h.phase.running (h.turn.data ts tc d hm)
  have hseq := h.turn.ended (by simp [hx]) (by simp [hx, SyncPc.InLoop])
  exact h.delivered.received.eq_of_length_le (hseq ▸ h.delivered.lower)

namespace System

/-- What the client's handlers give to `check_ulog_valid`. -/
def heard (s : System) : Event → List Bytes
  | .deliver i =>
    match s.streamer.wire[i]? with
    | some (.loggingData _ _ data) => [data]
    | some (.loggingDataAcked _ _ sequence data) =>
      if sequence ∈ s.client.sequenceKeeper then [] else [data]
    | _ => []
  | _ => []

/-- A message that reaches the client is one more definition, or more data, or
nothing new. -/
theorem heard_cases {s s' : System} (hs : s.step e = some s') :
    (s.heard e = [] ∧ s'.client.definitions = s.client.definitions ∧
      s'.client.data = s.client.data) ∨
    (∃ d, s.heard e = [d] ∧ s'.client.definitions = s.client.definitions ++ [d] ∧
      s'.client.data = s.client.data ∧ s'.streamer = s.streamer) ∨
    ∃ d, s.heard e = [d] ∧ s'.client.definitions = s.client.definitions ∧
      s'.client.data = s.client.data ++ [d] := by
  cases e with
  | streamer e =>
    obtain ⟨-, t, -, rfl⟩ := step_streamer hs
    exact .inl ⟨rfl, rfl, rfl⟩
  | ack i =>
    rw [step] at hs
    split at hs
    · obtain ⟨j, -, rfl⟩ := Option.map_eq_some_iff.mp hs
      exact .inl ⟨rfl, rfl, rfl⟩
    · cases hs
  | deliver i =>
    obtain ⟨w, hw, rfl⟩ := Option.map_eq_some_iff.mp hs
    rw [heard, hw]
    cases w with
    | commandAck => exact .inl ⟨rfl, rfl, rfl⟩
    | loggingData ts tc d => exact .inr (.inr ⟨d, rfl, rfl, rfl⟩)
    | loggingDataAcked ts tc sequence d =>
      by_cases hkept : sequence ∈ s.client.sequenceKeeper
      · exact .inl (by simp [MutelemetryClient.receive, hkept])
      · exact .inr (.inl ⟨d, by simp [MutelemetryClient.receive, hkept]⟩)

end System

end Network

namespace Session

/-- What the client's handlers give to `check_ulog_valid`. -/
def heard (s : Session) : Event → List Bytes
  | .process _ => []
  | .network e =>
    match s.process.streamer with
    | some t => System.heard ⟨t, s.client⟩ e
    | none => []

def given (address : SparseAddress) (es : List Event) : List Bytes :=
  Transition.trace step heard (new address) es

def types (es : List Event) : List Bytes := es.flatMap fun
  | .process e => Process.named e
  | .network _ => []

def Fits (s : Session) : Prop :=
  ∀ t, s.process.streamer = some t → t.definitions.length ≤ 65536

-- ---------------------------------------------------------------------------
-- Steps
-- ---------------------------------------------------------------------------

section
variable {s s' : Session}

theorem Joined.fits_of_step (h : Joined address cs s) (hs : s.step e = some s')
    (hfits : s'.Fits) : s.Fits := by
  intro t ht
  obtain ⟨e', p, rfl, he, hp, rfl⟩ | ⟨e', t', n, rfl, he, ht', hn, rfl⟩ := step_cases hs
  · cases feeds_of_step h.stage he hp with
    | start hnone => exact absurd (ht.symm.trans hnone) (by simp)
    | feed hfeed =>
      rw [ht] at hfeed
      have hlen := hfits { t with dataQueue := _ } hfeed
      exact hlen
  · cases ht.symm.trans ht'
    have hlen := hfits n.streamer rfl
    obtain hsame | ⟨e'', -, hstep⟩ := network_cases hn he
    · rwa [hsame] at hlen
    · exact (prefix_definitions hstep).length_le.trans hlen

/-- What is heard is what the client keeps: data comes behind all definitions. -/
theorem Joined.heard (h : Joined address cs s) (hs : s.step e = some s') (hfits : s'.Fits) :
    s.client.definitions ++ s.client.data ++ s.heard e =
      s'.client.definitions ++ s'.client.data := by
  obtain ⟨e', p, rfl, he, hp, rfl⟩ | ⟨e', t, n, rfl, he, ht, hn, rfl⟩ := step_cases hs
  · simp [Session.heard]
  · have hheard : s.heard (.network e') = System.heard ⟨t, s.client⟩ e' := by
      rw [Session.heard, ht]
    rw [hheard]
    obtain ⟨h₀, hdefs, hdata⟩ | ⟨d, h₁, hdefs, hdata, hsame⟩ | ⟨d, h₁, hdefs, hdata⟩ :=
      System.heard_cases hn
    · simp [h₀, hdefs, hdata]
    · -- with data the client would have had this definition
      have hnone : s.client.data = [] := by
        by_contra hne
        obtain ⟨x, hx⟩ := List.exists_mem_of_ne_nil _ hne
        obtain ⟨rt, hreached⟩ := h.reached t ht
        obtain ⟨w, hw, hwd⟩ := List.mem_filterMap.mp (data_sent hreached x hx)
        have hlen := h.fits_of_step hs hfits t ht
        have hsynced := System.synced_of_reachable hreached hlen
        cases w with
        | loggingDataAcked | commandAck => cases hwd
        | loggingData ts tc y =>
          have hcomplete := hsynced.complete hw
          obtain ⟨es, hes⟩ := hreached
          have hnext := System.synced_of_reachable ⟨es ++ [e'], Transition.run_concat.mpr ⟨_, hes, hn⟩⟩
            (show n.streamer.definitions.length ≤ 65536 by rw [hsame]; exact hlen)
          have hle := hnext.delivered.received.length_le
          rw [hdefs, hcomplete, hsame, List.length_append, List.length_singleton] at hle
          omega
      simp [h₁, hdefs, hdata, hnone]
    · simp [h₁, hdefs, hdata]

structure Reception (address : SparseAddress) (past : List Event) (s : Session) : Prop where
  run : Transition.run Session.step (new address) past = some s
  joined : Joined address (calls address past) s
  voiced : Process.Voiced (types past) (calls address past) s.process.telemetry
  given : s.Fits → given address past = s.client.definitions ++ s.client.data

theorem reception_new (address : SparseAddress) : Reception address [] (new address) :=
  ⟨rfl, joined_new address, Process.voiced_new, fun _ => rfl⟩

theorem Joined.voiced (h : Joined address cs s)
    (hv : Process.Voiced made cs s.process.telemetry)
    (hnow : ∀ s, e = .process (.init s) → s.now ≠ 0) (hs : s.step e = some s') :
    Process.Voiced (made ++ types [e]) (cs ++ s.answered e) s'.process.telemetry := by
  obtain ⟨e', p, rfl, -, hp, rfl⟩ | ⟨e', t, n, rfl, -, -, -, rfl⟩ := step_cases hs
  · simpa [types, answered] using hv.step h.stage (fun i hi => hnow i (by rw [hi])) hp
  · simpa [types, answered] using hv

theorem Reception.step (h : Reception address past s)
    (hnow : ∀ s, e = .process (.init s) → s.now ≠ 0) (hs : s.step e = some s') :
    Reception address (past ++ [e]) s' := by
  obtain ⟨hrun, hj, hv, hgiven⟩ := h
  refine ⟨Transition.run_concat.mpr ⟨s, hrun, hs⟩, ?_, ?_, fun hfits => ?_⟩
  · rw [calls, Transition.trace_concat hrun]
    exact hj.step hnow hs
  · rw [calls, Transition.trace_concat hrun, types, List.flatMap_append]
    exact hj.voiced hv hnow hs
  · rw [Session.given, Transition.trace_concat hrun]
    rw [Session.given] at hgiven
    rw [hgiven (hj.fits_of_step hs hfits)]
    exact hj.heard hs hfits

theorem reception_of_run (hclock : ClockRuns es)
    (h : Transition.run Session.step (new address) es = some s) : Reception address es s := by
  have hrun : Transition.Guarded Session.step (fun _ e => ∀ s, e = .process (.init s) → s.now ≠ 0)
      (new address) es s :=
    Transition.Guarded.of_run h fun e he _ s hs => hclock s (hs ▸ he)
  have hr := hrun.history (Reception address) (fun hr hnow hs => hr.step hnow hs)
    (reception_new address)
  rwa [List.nil_append] at hr

-- ---------------------------------------------------------------------------
-- The client's parser
-- ---------------------------------------------------------------------------

theorem preamble_notData (t : MuTelemetry) :
    ∀ m ∈ Process.preamble t, (!checkUlogDataBegin m) = true := by
  simp only [Process.preamble, List.forall_mem_cons, List.not_mem_nil, false_imp_iff,
    implies_true, and_true]
  exact ⟨rfl, rfl⟩

/-- The calls before the first record are behind what the client has, and of
those behind it is the data. -/
theorem calls_of_received (hms : List.Forall₂ (Spoken names) cs ms)
    (hpre : Process.preamble t ++ dms <+:
      (Process.preamble t ++ ms).takeWhile (!checkUlogDataBegin ·))
    (hall : data ≠ [] → Process.preamble t ++ dms =
      (Process.preamble t ++ ms).takeWhile (!checkUlogDataBegin ·))
    (hdata : ∀ d ∈ data, d ∈ (Process.preamble t ++ ms).dropWhile (!checkUlogDataBegin ·)) :
    ∃ ds es, ds <+: cs.takeWhile (!·.isData) ∧ (∀ c ∈ es, c ∈ cs.dropWhile (!·.isData)) ∧
      (es ≠ [] → ds = cs.takeWhile (!·.isData)) ∧ List.Forall₂ (Spoken names) ds dms ∧
      List.Forall₂ (Spoken names) es data := by
  have hbegin : ∀ c m, Spoken names c m → (!c.isData) = !checkUlogDataBegin m :=
    fun c m hs => by rw [hs.dataBegin]
  rw [List.takeWhile_append_of_pos (preamble_notData t)] at hpre hall
  rw [List.dropWhile_append_of_pos (preamble_notData t)] at hdata
  have hfirst := Related.takeWhile hms hbegin
  obtain ⟨ds, hds, hdms⟩ := Related.prefix_right hfirst ((List.prefix_append_right_inj _).mp hpre)
  obtain ⟨es, hes⟩ := Related.exists_left fun d hd =>
    Related.exists_of_mem_right (Related.dropWhile hms hbegin) (hdata d hd)
  obtain ⟨hmem, hsaid⟩ := (List.forall₂_and_left es data).mp hes
  refine ⟨ds, es, hds, hmem, fun hne => ?_, hdms, hsaid⟩
  have hsome : data ≠ [] := by
    rintro rfl
    cases hsaid
    exact hne rfl
  have hlen := List.append_cancel_left (hall hsome) ▸ hdms.length_eq
  exact hds.eq_of_length (hlen.trans hfirst.length_eq.symm)

/-- From the calls to the parser of the client, over a network that may lose,
repeat, delay and reorder. The buffers that the client checks are those of some
of the calls: of the first of the definitions, then, when these are all there,
of calls behind them, in any order and number. They are all accepted if and only
if no text comes before the first record, and then the parser has what these
calls say, and nothing else. -/
theorem session_reads (hclock : ClockRuns es)
    (h : Transition.run Session.step (new address) es = some s)
    (hnet : s.process.telemetry.withNetwork = true) (hfits : s.Fits)
    (htypes : (types es).toFinset.card ≤ 2 ^ 16) (hnames : NotInstances (types es))
    (htells : Tells .start (calls address es) r) (htwo : 2 ≤ s.client.definitions.length)
    (hbs : List.Forall₂ (· <+: ·) (given address es) bs) :
    ∃ ds cs, ds <+: (calls address es).takeWhile (!·.isData) ∧
      (∀ c ∈ cs, c ∈ (calls address es).dropWhile (!·.isData)) ∧
      (cs ≠ [] → ds = (calls address es).takeWhile (!·.isData)) ∧
      Process.Answers (ds ++ cs) ((given address es).drop 2) ∧
      ((∃ q, Transition.run valid .new bs = some q) ↔ Quiet cs) ∧
      ∀ q, Transition.run valid .new bs = some q → Tells .start (ds ++ cs) (readingOf q) := by
  obtain ⟨-, hj, ⟨names, ms, hmade, hids, hms, hqueue⟩, hgiven⟩ := reception_of_run hclock h
  have hgiven := hgiven hfits
  obtain ⟨hnew, -⟩ | hp := hj.stage
  · rw [hnew] at hnet
    cases hnet
  obtain ⟨t, -, hfirst, hall, hsublist, hdata⟩ := hj.delivers hp hnet hfits
  rw [hqueue, if_pos hnet] at hfirst hall hsublist
  -- the header and the flags are the first two
  obtain ⟨dms, hdms⟩ : Process.preamble s.process.telemetry <+: s.client.definitions := by
    refine List.prefix_of_prefix_length_le ?_ hfirst htwo
    rw [List.takeWhile_append_of_pos (preamble_notData _)]
    exact List.prefix_append _ _
  rw [← hdms] at hfirst hall hgiven
  obtain ⟨ds, cs, hds, hcs, hne, hspoken, hsaid⟩ :=
    calls_of_received hms hfirst hall fun d hd => hsublist.subset (hdata d hd)
  -- what the identifiers in them say
  have hcard : names.length ≤ 2 ^ 16 := by
    rw [← List.toFinset_card_of_nodup hids.nodup]
    refine (Finset.card_le_card fun n hn => ?_).trans htypes
    rw [List.mem_toFinset] at hn ⊢
    exact hmade n hn
  have hc : Coherent (TagOf names) :=
    coherent_tagOf hcard fun a ha b hb => hnames a (hmade a ha) b (hmade b hb)
  rw [hgiven, List.append_assoc] at hbs
  have hsplit : (calls address es).takeWhile (!·.isData) ++
      (calls address es).dropWhile (!·.isData) = calls address es :=
    List.takeWhile_append_dropWhile
  rw [← hsplit] at htells
  refine ⟨ds, cs, hds, hcs, hne, ?_, run_stream_arrivals htells (fun c hmem => ?_)
    (fun c hmem => ?_) hds hne hcs hspoken hsaid hbs hc⟩
  · have hanswers : ∀ c m, Spoken names c m → ∃ t t', MuTelemetry.Enqueues t c m t' := by
      rintro c m ⟨t, t', ns, he, -⟩
      exact ⟨t, t', he⟩
    rw [hgiven, List.append_assoc]
    exact (List.rel_append hspoken hsaid).imp hanswers
  · simpa using List.mem_takeWhile_imp hmem
  · have hhead := List.head?_dropWhile_not (!·.isData) (calls address es)
    rw [Option.mem_def.mp hmem] at hhead
    simpa using hhead

end

def firstsCalled : List Event :=
  [.process (.init ⟨true, false, 7, some ⟨true, some true, none, none⟩, [], true⟩),
    .process (.call firstFormat), .process (.call firstRecord), .process (.call firstLog)]

def recordRepeated : List Event := firstsCalled ++ recordTwice.map .network

theorem clockRuns_recordRepeated : ClockRuns recordRepeated := by
  intro s hs
  simp only [recordRepeated, firstsCalled, List.mem_append, List.mem_cons, List.mem_map,
    Event.process.injEq, Process.Event.init.injEq, reduceCtorEq, List.not_mem_nil, and_false,
    exists_false, or_false] at hs
  subst hs
  decide

theorem calls_network (s : Session) (es : List System.Event) :
    Transition.trace step answered s (es.map .network) = [] := by
  induction es generalizing s with
  | nil => rfl
  | cons e es ih =>
    rw [List.map_cons, Transition.trace, answered, List.nil_append]
    split
    · exact ih _
    · rfl

set_option maxRecDepth 20000 in
theorem calls_firsts : calls ⟨1, 1⟩ firstsCalled = [firstFormat, firstRecord, firstLog] := rfl

theorem session_reads_repeated : ∃ s bs q ds cs,
    Transition.run Session.step (new ⟨1, 1⟩) recordRepeated = some s ∧
    s.client.data.length = 3 ∧ List.Forall₂ (· <+: ·) (given ⟨1, 1⟩ recordRepeated) bs ∧
    Transition.run valid .new bs = some q ∧
    Process.Answers (ds ++ cs) ((given ⟨1, 1⟩ recordRepeated).drop 2) ∧
    Tells .start (ds ++ cs) (readingOf q) := by
  have hrun : (Transition.run Session.step (new ⟨1, 1⟩) recordRepeated).map (fun s =>
      (s.process.telemetry.withNetwork, s.client.definitions.length, s.client.data.length,
        s.process.streamer.map fun t => t.definitions.length)) = some (true, 3, 3, some 3) := by
    decide +kernel
  obtain ⟨s, hs, hfacts⟩ := Option.map_eq_some_iff.mp hrun
  simp only [Prod.mk.injEq] at hfacts
  obtain ⟨hnet, hdefinitions, hthree, hlen⟩ := hfacts
  have hfits : s.Fits := by
    intro t ht
    rw [ht, Option.map_some, Option.some_inj] at hlen
    omega
  have hcalls : calls ⟨1, 1⟩ recordRepeated = [firstFormat, firstRecord, firstLog] := by
    have hcalled : (Transition.run step (new ⟨1, 1⟩) firstsCalled).isSome := by decide +kernel
    rw [calls, recordRepeated, Transition.trace_append (Option.some_get hcalled).symm,
      calls_network, List.append_nil]
    exact calls_firsts
  have htypes : types recordRepeated = [ascii "T"] := by decide +kernel
  have hlookup : (Reading.start.addFormat parsedFormat).formats.lookup (ascii "T") =
      some parsedFormat := AList.lookup_insert _
  have htells : Tells .start (calls ⟨1, 1⟩ recordRepeated) firstReading := by
    rw [hcalls]
    exact .cons (.dataFormat rfl (by decide)) (.cons (.data (v := .prim (.int8 5) .done) (by decide)
      hlookup (.flat hlookup (by decide)) (.prim rfl .done) rfl) (.cons (.message rfl) .nil))
  have hbs : List.Forall₂ (· <+: ·) (given ⟨1, 1⟩ recordRepeated) (given ⟨1, 1⟩ recordRepeated) :=
    List.forall₂_same.mpr fun _ _ => List.prefix_rfl
  have hvalid : (Transition.run valid .new (given ⟨1, 1⟩ recordRepeated)).isSome := by decide +kernel
  obtain ⟨q, hq⟩ := Option.isSome_iff_exists.mp hvalid
  obtain ⟨ds, cs, -, -, -, hanswers, -, hreads⟩ := session_reads clockRuns_recordRepeated hs hnet
    hfits (by rw [htypes]; decide) (by rw [htypes]; exact notInstances_singleton _) htells
    (by omega) hbs
  exact ⟨s, _, q, ds, cs, hs, hthree, hbs, hq, hanswers, hreads q hq⟩

end Session

end Mutelemetry
