import Mutelemetry.Parse.Build

/-!
# Keeping the data

The build with `KEEP_DATA` and the one without it, run in lockstep on the same
buffers. Of a series the default build has the latest values of what the other
keeps; nothing else that a caller can see depends on the build, and every call
ends alike in both.
-/

namespace Mutelemetry.Parse

open ByteString Lockstep Stateful Ulog

-- ---------------------------------------------------------------------------
-- Series
-- ---------------------------------------------------------------------------

def latestColumn (el : Bytes × List Float) : Bytes × List Float := (el.1, el.2.getLast?.toList)

def Timeseries.latest (timeseries : Timeseries) : Timeseries where
  timestamps := timeseries.timestamps.getLast?.toList
  data := timeseries.data.map latestColumn

theorem getLast?_toList_getLast? (l : List α) : l.getLast?.toList.getLast? = l.getLast? := by
  cases l.getLast? with
  | none | some => rfl

theorem latestValue_latestColumn (el : Bytes × List Float) :
    latestValue (latestColumn el) = latestValue el := by
  simp only [latestValue, latestColumn, getLast?_toList_getLast?]

/-- What `data_handler_` is called with is made of the latest values. -/
theorem Timeseries.getLatestData_latest (timeseries : Timeseries) (name : Bytes) :
    timeseries.latest.getLatestData name = timeseries.getLatestData name := by
  simp only [getLatestData, latest, getLast?_toList_getLast?, List.mapM_map,
    Function.comp_def, latestValue_latestColumn]

theorem createTimeseries_latest (h : createTimeseries formats format = .ok timeseries) :
    timeseries.latest = timeseries := by
  rw [createTimeseries] at h
  obtain ⟨paths, -, h⟩ := bind_eq_ok.mp h
  cases h
  simp [Timeseries.latest, latestColumn, Function.comp_def]

namespace Build

variable (relaxed : Bool)

theorem keep_latest (values : List α) (value : α) :
    keep ⟨relaxed, false⟩ values.getLast?.toList value =
      (keep ⟨relaxed, true⟩ values value).getLast?.toList := by
  simp [keep]

theorem stamp_latest (timeseries : Timeseries) (tval : UInt64) :
    stamp ⟨relaxed, false⟩ timeseries.latest tval = (stamp ⟨relaxed, true⟩ timeseries tval).latest := by
  simp only [stamp, Timeseries.latest, keep_latest]

theorem setColumn_latest (timeseries : Timeseries) (i : Nat) (value : Float) :
    setColumn ⟨relaxed, false⟩ timeseries.latest i value =
      (setColumn ⟨relaxed, true⟩ timeseries i value).latest := by
  simp only [setColumn, Timeseries.latest, Timeseries.mk.injEq, true_and]
  refine List.ext_getElem? fun j => ?_
  simp only [List.getElem?_modify, List.getElem?_map]
  cases timeseries.data[j]? with
  | none => simp
  | some el =>
    by_cases hij : i = j
    · simp [hij, latestColumn, keep]
    · simp [hij]

end Build

-- ---------------------------------------------------------------------------
-- Values
-- ---------------------------------------------------------------------------

def KeptCursor (c d : Cursor) : Prop := c = { d with timeseries := d.timeseries.latest }

section
variable (relaxed : Bool)

theorem skip_kept (n : Int) : Agree KeptCursor Eq (skip n) (skip n) :=
  agree_modify fun _ _ h => by rw [h]; rfl

theorem readValue_kept (buffer : Bytes) (type : FormatType) :
    Agree KeptCursor Eq (readValue buffer type) (readValue buffer type) := by
  refine agree_bind agree_get fun c d hcd => ?_
  rw [show c.message = d.message by rw [hcd]]
  cases fetch buffer d.message type.sizeOf with
  | error fault => exact agree_throw fault
  | ok bs => exact agree_bind (skip_kept _) fun _ _ _ => agree_pure rfl

theorem storeValue_kept (value : Float) : Agree KeptCursor Eq
    (Build.storeValue ⟨relaxed, false⟩ value) (Build.storeValue ⟨relaxed, true⟩ value) := by
  rintro _ d rfl
  simp only [Build.storeValue, run_seq, EStateM.run_get, Timeseries.latest, List.length_map]
  split
  · refine .ok rfl ?_
    rw [KeptCursor, ← Build.setColumn_latest]
    rfl
  · exact .error rfl

theorem parseDataIntl_kept (formats : Formats) (buffer : Bytes) (depth : Nat) (format : Format) :
    Agree KeptCursor Eq (Build.parseDataIntl ⟨relaxed, false⟩ formats buffer depth format)
      (Build.parseDataIntl ⟨relaxed, true⟩ formats buffer depth format) := by
  induction depth generalizing format with
  | zero => exact agree_throw _
  | succ depth ih =>
    refine agree_forM fun field _ => ?_
    split
    · exact skip_kept _
    · refine agree_forM fun _ _ => ?_
      split
      · cases formats.lookup field.otherTypeId with
        | none => exact agree_throw _
        | some child => exact agree_bind (skip_kept _) fun _ _ _ => ih child
      · refine agree_bind (readValue_kept buffer field.type) fun value _ h => ?_
        rw [← h]
        exact storeValue_kept relaxed value

end

-- ---------------------------------------------------------------------------
-- Messages
-- ---------------------------------------------------------------------------

/-- The parsers of the two builds: the first has the latest values of the
series of the second, and the log messages the second does not keep. -/
def Kept (p q : MutelemetryParser) : Prop :=
  ∃ timeseries, p = { q with timeseries := timeseries, messageLogs := q.logCalls } ∧
    q.messageLogs = [] ∧
    ∀ name, timeseries.lookup name = (q.timeseries.lookup name).map Timeseries.latest

theorem kept_new : Kept .new .new := ⟨∅, rfl, rfl, fun _ => rfl⟩

theorem Kept.handlers (h : Kept p q) : p.dataCalls = q.dataCalls ∧ p.logCalls = q.logCalls := by
  obtain ⟨t, rfl, -, -⟩ := h
  exact ⟨rfl, rfl⟩

theorem lift_kept (x : Except Fault α) : Agree Kept Eq (lift x) (lift x) := by
  cases x with
  | ok a => exact agree_pure rfl
  | error fault => exact agree_throw fault

theorem lift_latest_kept (x : Except Fault Timeseries) : Agree Kept (fun t u => t = u.latest)
    (lift (x.map Timeseries.latest)) (lift x) := by
  cases x with
  | ok timeseries => exact agree_pure rfl
  | error fault => exact fun _ _ h => .error h

theorem get_state_kept : Agree Kept Eq (do return (← get).state : ParseM ParseState)
    (do return (← get).state) := by
  refine agree_bind agree_get ?_
  rintro _ q ⟨t, rfl, -, -⟩
  exact agree_pure rfl

theorem setSeries_kept (name : Bytes) (timeseries : Timeseries) : Agree Kept Eq
    (modify (·.setSeries name timeseries.latest) : ParseM PUnit)
    (modify (·.setSeries name timeseries)) := by
  refine agree_modify ?_
  rintro _ q ⟨t, rfl, hlogs, ht⟩
  refine ⟨t.insert name timeseries.latest, rfl, hlogs, fun other => ?_⟩
  by_cases h : other = name
  · subst h
    simp [MutelemetryParser.setSeries]
  · simp only [MutelemetryParser.setSeries, AList.lookup_insert_ne h, ht]

theorem mem_kept {t u : AList fun _ : Bytes => Timeseries}
    (h : ∀ name, t.lookup name = (u.lookup name).map Timeseries.latest) (name : Bytes) :
    name ∈ t ↔ name ∈ u := by
  rw [← AList.lookup_isSome, ← AList.lookup_isSome, h name, Option.isSome_map]

theorem insertSeries_kept (name : Bytes) (timeseries : Timeseries) : Agree Kept Eq
    (insertSeries name timeseries.latest) (insertSeries name timeseries) := by
  intro p q hpq
  obtain ⟨t, rfl, hlogs, ht⟩ := hpq
  by_cases hmem : name ∈ q.timeseries
  · simp only [insertSeries, EStateM.run_modify, mem_kept ht, if_pos hmem]
    exact .ok rfl ⟨t, rfl, hlogs, ht⟩
  · simp only [insertSeries, EStateM.run_modify, mem_kept ht, if_neg hmem]
    exact setSeries_kept name timeseries _ q ⟨t, rfl, hlogs, ht⟩

theorem seriesFor_kept (h : Kept p q) (sub : Subscription) :
    p.seriesFor sub = (q.seriesFor sub).map Timeseries.latest := by
  obtain ⟨t, hp, -, ht⟩ := h
  have hname : p.seriesName sub = q.seriesName sub := by rw [hp]; rfl
  have hformat : p.formatOf sub = q.formatOf sub := by rw [hp]; rfl
  have hformats : p.formats = q.formats := by rw [hp]
  have hlookup := ht (q.seriesName sub)
  rw [show t = p.timeseries by rw [hp]] at hlookup
  rw [MutelemetryParser.seriesFor, MutelemetryParser.seriesFor, hname, hlookup, hformat, hformats]
  cases q.timeseries.lookup (q.seriesName sub) with
  | some timeseries => rfl
  | none =>
    cases q.formatOf sub with
    | error => rfl
    | ok format =>
      simp only [Option.map_none, ok_bind]
      cases hnew : createTimeseries q.formats format with
      | error => rfl
      | ok timeseries => rw [Except.map, createTimeseries_latest hnew]

theorem handleData_kept (data : MessageData) : Agree Kept Eq
    (modify (·.handleData data) : ParseM PUnit) (modify (·.handleData data)) := by
  refine agree_modify ?_
  rintro _ q ⟨t, rfl, hlogs, ht⟩
  exact ⟨t, rfl, hlogs, ht⟩

section
variable (relaxed : Bool)

theorem parseData_kept (buffer : Bytes) (message : Nat) : Agree Kept Eq
    (Build.parseData ⟨relaxed, false⟩ buffer message)
    (Build.parseData ⟨relaxed, true⟩ buffer message) := by
  refine agree_bind (lift_kept _) ?_
  rintro msgId _ rfl
  refine agree_bind agree_get fun p q hpq => ?_
  have hseries := seriesFor_kept hpq
  obtain ⟨t, rfl, -, -⟩ := hpq
  dsimp only
  cases q.subscriptions.lookup msgId with
  | none => exact agree_pure rfl
  | some sub =>
    dsimp only
    rw [hseries sub]
    refine agree_bind (lift_latest_kept _) ?_
    rintro _ timeseries rfl
    refine agree_bind (insertSeries_kept _ timeseries) fun _ _ _ => ?_
    refine agree_bind (lift_kept _) ?_
    rintro tval _ rfl
    refine agree_bind (lift_kept (q.formatOf sub)) ?_
    rintro format _ rfl
    rw [Build.stamp_latest]
    have hwalk := parseDataIntl_kept relaxed q.formats buffer q.formats.keys.length format
      _ ⟨Build.stamp ⟨relaxed, true⟩ timeseries tval, ↑(message + 10), 0⟩ rfl
    dsimp only at hwalk ⊢
    generalize EStateM.run _ _ = r at hwalk ⊢
    generalize EStateM.run _ _ = r' at hwalk ⊢
    cases hwalk with
    | error hcd =>
      rw [hcd]
      exact agree_bind (setSeries_kept _ _) fun _ _ _ => agree_throw _
    | ok _ hcd =>
      rw [hcd]
      refine agree_bind (setSeries_kept _ _) fun _ _ _ => ?_
      rw [Timeseries.getLatestData_latest]
      refine agree_bind (lift_kept _) ?_
      rintro data _ rfl
      exact agree_bind (handleData_kept data) fun _ _ _ => agree_pure rfl

theorem parseInfo_kept (buffer : Bytes) (message : Nat) (msgSize : UInt16) : Agree Kept Eq
    (parseInfo buffer message msgSize) (parseInfo buffer message msgSize) := by
  refine agree_bind (lift_kept _) ?_
  rintro ⟨key, value⟩ _ rfl
  refine agree_bind (agree_modify ?_) fun _ _ _ => get_state_kept
  rintro _ q ⟨t, rfl, hlogs, ht⟩
  exact ⟨t, rfl, hlogs, ht⟩

theorem refused_kept : Agree Kept Eq
    (do return Build.refused ⟨relaxed, false⟩ (← get).state : ParseM ParseState)
    (do return Build.refused ⟨relaxed, true⟩ (← get).state) := by
  refine agree_bind agree_get ?_
  rintro _ q ⟨t, rfl, -, -⟩
  exact agree_pure rfl

theorem parseHeader_kept (buffer : Bytes) (pos : Nat) : Agree Kept Eq
    (Build.parseHeader ⟨relaxed, false⟩ buffer pos)
    (Build.parseHeader ⟨relaxed, true⟩ buffer pos) := by
  refine agree_bind (lift_kept _) ?_
  rintro timestamp _ rfl
  cases timestamp with
  | none => exact refused_kept relaxed
  | some timestamp =>
    refine agree_bind (agree_modify ?_) fun _ _ _ => agree_pure rfl
    rintro _ q ⟨t, rfl, hlogs, ht⟩
    exact ⟨t, rfl, hlogs, ht⟩

theorem parseFlags_kept (buffer : Bytes) (pos : Nat) : Agree Kept Eq
    (Build.parseFlags ⟨relaxed, false⟩ buffer pos)
    (Build.parseFlags ⟨relaxed, true⟩ buffer pos) := by
  refine agree_bind (lift_kept _) ?_
  rintro type _ rfl
  split
  · exact lift_kept _
  · exact refused_kept relaxed

theorem parseFormat_kept (buffer : Bytes) (message : Nat) (msgSize : UInt16) : Agree Kept Eq
    (Build.parseFormat ⟨relaxed, false⟩ buffer message msgSize)
    (Build.parseFormat ⟨relaxed, true⟩ buffer message msgSize) := by
  refine agree_bind (lift_kept _) ?_
  rintro text _ rfl
  refine agree_bind (lift_kept _) ?_
  rintro format _ rfl
  cases format with
  | none => exact refused_kept relaxed
  | some format =>
    refine agree_bind (agree_modify ?_) fun _ _ _ => get_state_kept
    rintro _ q ⟨t, rfl, hlogs, ht⟩
    exact ⟨t, rfl, hlogs, ht⟩

theorem parseParam_kept (buffer : Bytes) (message : Nat) : Agree Kept Eq
    (Build.parseParam ⟨relaxed, false⟩ buffer message)
    (Build.parseParam ⟨relaxed, true⟩ buffer message) := by
  refine agree_bind (lift_kept _) ?_
  rintro param _ rfl
  cases param with
  | none => exact refused_kept relaxed
  | some param =>
    refine agree_bind (agree_modify ?_) fun _ _ _ => get_state_kept
    rintro _ q ⟨t, rfl, hlogs, ht⟩
    exact ⟨t, rfl, hlogs, ht⟩

theorem parseAdd_kept (buffer : Bytes) (message : Nat) (msgSize : UInt16) : Agree Kept Eq
    (parseAdd buffer message msgSize) (parseAdd buffer message msgSize) := by
  refine agree_bind agree_get ?_
  rintro _ q ⟨t, rfl, -, -⟩
  refine agree_bind (lift_kept _) ?_
  rintro sub _ rfl
  refine agree_bind (agree_modify ?_) fun _ _ _ => agree_pure rfl
  rintro _ q' ⟨t', rfl, hlogs, ht⟩
  exact ⟨t', rfl, hlogs, ht⟩

theorem dataBehind_kept (buffer : Bytes) (hdr : Nat) : Agree Kept Eq
    (dataBehind buffer hdr) (dataBehind buffer hdr) := by
  unfold dataBehind
  cases headerType buffer hdr with
  | ok type => exact agree_pure rfl
  | error fault =>
    refine agree_bind (agree_modify ?_) fun _ _ _ => agree_pure rfl
    rintro _ q ⟨t, rfl, hlogs, ht⟩
    exact ⟨t, rfl, hlogs, ht⟩

theorem parseAddData_kept (buffer : Bytes) (pos : Nat) : Agree Kept Eq
    (Build.parseAddData ⟨relaxed, false⟩ buffer pos)
    (Build.parseAddData ⟨relaxed, true⟩ buffer pos) := by
  refine agree_bind (lift_kept _) ?_
  rintro size _ rfl
  refine agree_bind (parseAdd_kept _ _ _) ?_
  rintro nextState _ rfl
  refine agree_bind (dataBehind_kept _ _) ?_
  rintro behind _ rfl
  split
  · exact parseData_kept relaxed _ _
  · exact agree_pure rfl

theorem parseLogged_kept (buffer : Bytes) (message : Nat) (msgSize : UInt16) : Agree Kept Eq
    (Build.parseLogged ⟨relaxed, false⟩ buffer message msgSize)
    (Build.parseLogged ⟨relaxed, true⟩ buffer message msgSize) := by
  refine agree_bind (lift_kept _) ?_
  rintro msgLog _ rfl
  refine agree_bind (agree_modify ?_) fun _ _ _ => agree_pure rfl
  rintro _ q ⟨t, rfl, hlogs, ht⟩
  exact ⟨t, rfl, hlogs, ht⟩

theorem parseRemove_kept (buffer : Bytes) (message : Nat) : Agree Kept Eq
    (parseRemove buffer message) (parseRemove buffer message) := by
  refine agree_bind (lift_kept _) ?_
  rintro msgId _ rfl
  refine agree_bind (agree_modify ?_) fun _ _ _ => agree_pure rfl
  rintro _ q ⟨t, rfl, hlogs, ht⟩
  exact ⟨t, rfl, hlogs, ht⟩

theorem size_kept (buffer : Bytes) (pos : Nat) {f g : UInt16 → ParseM ParseState}
    (h : ∀ size, Agree Kept Eq (f size) (g size)) :
    Agree Kept Eq (do f (← lift (headerSize buffer pos))) (do g (← lift (headerSize buffer pos))) := by
  refine agree_bind (lift_kept _) ?_
  rintro size _ rfl
  exact h size

theorem parseDefinition_kept (buffer : Bytes) (pos : Nat) : Agree Kept Eq
    (Build.parseDefinition ⟨relaxed, false⟩ buffer pos)
    (Build.parseDefinition ⟨relaxed, true⟩ buffer pos) := by
  refine agree_bind (lift_kept _) ?_
  rintro type _ rfl
  match type with
  | some .I => exact size_kept _ _ (parseInfo_kept _ _)
  | some .M => exact get_state_kept
  | some .F => exact size_kept _ _ (parseFormat_kept relaxed _ _)
  | some .P => exact parseParam_kept relaxed _ _
  | some .A => exact parseAddData_kept relaxed _ _
  | some .B | some .D | some .L | some .S | some .O | some .R | none => exact refused_kept relaxed

theorem parseDataSection_kept (buffer : Bytes) (pos : Nat) : Agree Kept Eq
    (Build.parseDataSection ⟨relaxed, false⟩ buffer pos)
    (Build.parseDataSection ⟨relaxed, true⟩ buffer pos) := by
  refine agree_bind (lift_kept _) ?_
  rintro type _ rfl
  match type with
  | some .A => exact parseAddData_kept relaxed _ _
  | some .D => exact parseData_kept relaxed _ _
  | some .L => exact size_kept _ _ (parseLogged_kept relaxed _ _)
  | some .I => exact size_kept _ _ (parseInfo_kept _ _)
  | some .M => exact get_state_kept
  | some .P => exact parseParam_kept relaxed _ _
  | some .S | some .O => exact agree_pure rfl
  | some .R => exact parseRemove_kept _ _
  | some .B | some .F | none => exact refused_kept relaxed

-- ---------------------------------------------------------------------------
-- The state machine
-- ---------------------------------------------------------------------------

theorem assertState_kept (state expected : ParseState) : Agree Kept Eq
    (Build.assertState ⟨relaxed, false⟩ state expected)
    (Build.assertState ⟨relaxed, true⟩ state expected) := by
  simp only [Build.assertState, assertState]
  split
  · exact agree_pure rfl
  · split
    · exact agree_pure rfl
    · exact agree_throw _

theorem handle_kept (state : ParseState) (buffer : Bytes) (pos : Nat) : Agree Kept Eq
    (Build.handle ⟨relaxed, false⟩ state buffer pos)
    (Build.handle ⟨relaxed, true⟩ state buffer pos) := by
  cases state with
  | header =>
    refine agree_bind (parseHeader_kept relaxed buffer pos) ?_
    rintro state _ rfl
    exact assertState_kept relaxed state _
  | flags =>
    refine agree_bind (parseFlags_kept relaxed buffer pos) ?_
    rintro state _ rfl
    exact assertState_kept relaxed state _
  | definition => exact parseDefinition_kept relaxed buffer pos
  | definitionOrData => exact parseDataSection_kept relaxed buffer pos
  | invalid => exact agree_pure rfl

theorem parse_kept (buffer : Bytes) (pos : Nat) : Agree Kept Eq
    (Build.parse ⟨relaxed, false⟩ buffer pos) (Build.parse ⟨relaxed, true⟩ buffer pos) := by
  refine agree_bind agree_get ?_
  rintro _ q ⟨t, rfl, -, -⟩
  refine agree_bind (handle_kept relaxed _ buffer pos) ?_
  rintro newState _ rfl
  refine agree_bind (agree_modify ?_) fun _ _ _ => agree_pure rfl
  rintro _ q' ⟨t', rfl, hlogs, ht⟩
  exact ⟨t', rfl, hlogs, ht⟩

theorem checkUlogValid_kept (buffer : Bytes) : Agree Kept Eq
    (Build.checkUlogValid ⟨relaxed, false⟩ buffer)
    (Build.checkUlogValid ⟨relaxed, true⟩ buffer) := by
  refine agree_bind (parse_kept relaxed buffer 0) ?_
  rintro valid _ rfl
  split
  · refine agree_bind (lift_kept _) ?_
    rintro size _ rfl
    exact parse_kept relaxed buffer _
  · exact agree_pure rfl

/-- A caller cannot tell the two builds apart: whatever buffers they are given,
every call ends alike and the handlers are called with the same data. What one
of them keeps is the latest of what the other keeps. -/
theorem keepData_transparent (buffers : List Bytes) :
    let (ends, p) := calls (Build.checkUlogValid ⟨relaxed, false⟩) .new buffers
    let (ends', q) := calls (Build.checkUlogValid ⟨relaxed, true⟩) .new buffers
    ends = ends' ∧ p.dataCalls = q.dataCalls ∧ p.logCalls = q.logCalls ∧ Kept p q := by
  obtain ⟨hends, hkept⟩ := agree_calls (checkUlogValid_kept relaxed) kept_new buffers
  obtain ⟨hdata, hlog⟩ := hkept.handlers
  exact ⟨hends, hdata, hlog, hkept⟩

end

/-- Nor the parser modelled before from the build that keeps the data. -/
theorem checkUlogValid_keepData (buffers : List Bytes) :
    let (ends, p) := calls checkUlogValid .new buffers
    let (ends', q) := calls (Build.checkUlogValid ⟨false, true⟩) .new buffers
    ends = ends' ∧ p.dataCalls = q.dataCalls ∧ p.logCalls = q.logCalls ∧ Kept p q := by
  have hagree (buffer : Bytes) : Agree Kept Eq (checkUlogValid buffer)
      (Build.checkUlogValid ⟨false, true⟩ buffer) := by
    rw [← Build.checkUlogValid_default]
    exact checkUlogValid_kept false buffer
  obtain ⟨hends, hkept⟩ := agree_calls hagree kept_new buffers
  obtain ⟨hdata, hlog⟩ := hkept.handlers
  exact ⟨hends, hdata, hlog, hkept⟩

end Mutelemetry.Parse
